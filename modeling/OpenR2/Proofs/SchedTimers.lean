import Mathlib.Tactic.SplitIfs
import OpenR2.SchedTimers

namespace OpenR2

namespace Timeval

variable {a b c now : Timeval}

theorem before_asymm (h : a.before b) : ¬ b.before a := by
  unfold before at h ⊢
  split_ifs at h ⊢ <;> omega

theorem before_of_not_before (h : a.before b) (hc : ¬ c.before b) : a.before c := by
  unfold before at h hc ⊢
  split_ifs at h hc ⊢ <;> omega

/-- The order of the code is that of time where the microseconds are in their range, to
which the carry adds one million. -/
theorem micros_le (ha : a.tvUsec ≤ 1000000) (hb : 0 ≤ b.tvUsec) (h : ¬ b.before a) :
    a.micros ≤ b.micros := by
  unfold before at h
  simp only [micros]
  split_ifs at h <;> omega

theorem Proper.after_micros (h : now.Proper) (ms : Nat) :
    (now.after ms).micros = now.micros + 1000 * ms := by
  obtain ⟨h0, h1⟩ := h
  simp only [after, micros]
  split_ifs <;> (dsimp only; omega)

theorem Proper.after_usec (h : now.Proper) (ms : Nat) :
    0 ≤ (now.after ms).tvUsec ∧ (now.after ms).tvUsec ≤ 1000000 := by
  obtain ⟨h0, h1⟩ := h
  simp only [after]
  split_ifs <;> (dsimp only; omega)

end Timeval

namespace SchedCell

/-- In the order in which the timers are kept. -/
abbrev before (a b : SchedCell) : Prop := a.time.before b.time

end SchedCell

section Insertion

variable {as : List SchedCell} {t : SchedCell}

theorem pairwise_insert (h : as.Pairwise fun a b => ¬ b.before a) :
    (as.orderedInsert SchedCell.before t).Pairwise fun a b => ¬ b.before a := by
  induction as with
  | nil => exact List.pairwise_singleton _ _
  | cons b as ih =>
    obtain ⟨hb, has⟩ := List.pairwise_cons.mp h
    rw [List.orderedInsert_cons]
    split_ifs with ht
    · refine List.pairwise_cons.mpr ⟨fun c hc => Timeval.before_asymm ?_, h⟩
      rcases List.mem_cons.mp hc with rfl | hc
      · exact ht
      · exact Timeval.before_of_not_before ht (hb c hc)
    · refine List.pairwise_cons.mpr ⟨fun c hc => ?_, ih has⟩
      rcases (List.mem_orderedInsert _).mp hc with rfl | hc
      · exact ht
      · exact hb c hc

/-- The insertion as the loop makes it. -/
theorem orderedInsert_findIdx (as : List SchedCell) (t : SchedCell) :
    as.orderedInsert SchedCell.before t =
      as.take (as.findIdx fun b => t.time.before b.time) ++
        t :: as.drop (as.findIdx fun b => t.time.before b.time) := by
  rw [List.orderedInsert_eq_take_drop, List.takeWhile_eq_take_findIdx_not,
    List.dropWhile_eq_drop_findIdx_not]
  simp

end Insertion

namespace SchedTimers

variable {q : SchedTimers} {now : Timeval} {ms : Nat} {callback : TimerCallback} {id : Int}

@[simp] theorem length_waiting (q : SchedTimers) : q.waiting.length = q.timersCount :=
  Cells.length_content _ _

@[simp] theorem setSlot_waiting (slot : TimerSlot) (id : Int) (q : SchedTimers) :
    (q.setSlot slot id).waiting = q.waiting := rfl

@[simp] theorem setSlot_timersCount (slot : TimerSlot) (id : Int) (q : SchedTimers) :
    (q.setSlot slot id).timersCount = q.timersCount := rfl

@[simp] theorem setSlot_timerId (slot : TimerSlot) (id : Int) (q : SchedTimers) :
    (q.setSlot slot id).timerId = q.timerId := rfl

@[simp] theorem waiting_cancelAllTimers : cancelAllTimers.waiting = [] := rfl

theorem addTimer_full (hf : q.timersCount = maxSchedTimers) :
    q.addTimer (some now) ms callback = (q, -1) := if_pos hf

/-- The place that the loop finds is one of the queue, or the one behind it. -/
theorem place_le (time : Timeval) (q : SchedTimers) : q.place time ≤ q.timersCount := by
  have h : q.place time ≤ q.waiting.length := List.findIdx_le_length
  rwa [length_waiting] at h

/-- A timer more, before the first one that is later. -/
theorem addTimer_waiting (hf : q.timersCount ≠ maxSchedTimers) :
    (q.addTimer (some now) ms callback).1.waiting =
        q.waiting.orderedInsert SchedCell.before ⟨now.after ms, some callback, q.timerId + 1⟩ ∧
      (q.addTimer (some now) ms callback).2 = q.timerId + 1 ∧
      (q.addTimer (some now) ms callback).1.timersCount = q.timersCount + 1 ∧
      (q.addTimer (some now) ms callback).1.timerId = q.timerId + 1 ∧
      (q.addTimer (some now) ms callback).1.timerIds = q.timerIds := by
  have hp := place_le (now.after ms) q
  simp only [addTimer]
  rw [if_neg hf]
  refine ⟨?_, rfl, rfl, rfl, rfl⟩
  rw [orderedInsert_findIdx]
  simp only [waiting]
  by_cases hi : q.place (now.after ms) < q.timersCount
  · rw [if_pos hi, if_neg hi.ne]
    exact Cells.content_insert hp _
  · have he : q.place (now.after ms) = q.timersCount := by omega
    rw [if_neg hi, if_pos he, he, Cells.content_push]
    have hx : (Cells.content q.schedTimers q.timersCount).findIdx
        (fun b => (now.after ms).before b.time) = q.timersCount := he
    rw [hx, List.take_of_length_le (by simp), List.drop_of_length_le (by simp)]

/-- The first timer with the id goes, and nothing else changes but the cells behind it. -/
theorem cancelTimer_erase (hid : ¬ id < 1) :
    (q.cancelTimer id).1.waiting = q.waiting.eraseP (fun t => t.id == id) ∧
      (q.cancelTimer id).2 = q.waiting.any (fun t => t.id == id) ∧
      (q.cancelTimer id).1.timersCount ≤ q.timersCount ∧
      (q.cancelTimer id).1.timerId = q.timerId ∧
      (q.cancelTimer id).1.timerIds = q.timerIds := by
  simp only [cancelTimer]
  rw [if_neg hid, List.eraseP_eq_eraseIdx]
  cases hi : q.waiting.findIdx? (fun t => t.id == id) with
  | none =>
    refine ⟨rfl, ?_, Nat.le_refl _, rfl, rfl⟩
    exact (List.any_eq_false.mpr fun t ht => by simpa using List.findIdx?_eq_none_iff.mp hi t ht).symm
  | some i =>
    obtain ⟨hl, hx, -⟩ := List.findIdx?_eq_some_iff_getElem.mp hi
    have hl' : i < q.timersCount := by rwa [length_waiting] at hl
    refine ⟨?_, (List.any_eq_true.mpr ⟨_, List.getElem_mem hl, hx⟩).symm, Nat.sub_le _ _, rfl, rfl⟩
    by_cases hlt : i + 1 < q.timersCount
    · dsimp only [waiting]
      rw [if_pos hlt]
      exact Cells.content_remove hl' SchedCell.blank
    · dsimp only [waiting]
      rw [if_neg hlt]
      exact Cells.content_pop (by omega) SchedCell.blank

theorem cancelTimer_none (hid : id < 1) : q.cancelTimer id = (q, false) := if_pos hid

/-- No timer waits with an id that is not positive. -/
theorem cancelTimer_waiting (h : ∀ t ∈ q.waiting, 0 < t.id) (id : Int) :
    (q.cancelTimer id).1.waiting = q.waiting.eraseP (fun t => t.id == id) ∧
      (q.cancelTimer id).1.timersCount ≤ q.timersCount ∧
      (q.cancelTimer id).1.timerId = q.timerId ∧
      (q.cancelTimer id).1.timerIds = q.timerIds := by
  by_cases hn : id < 1
  · rw [cancelTimer_none hn]
    refine ⟨(List.eraseP_of_forall_not fun t ht => ?_).symm, Nat.le_refl _, rfl, rfl⟩
    have := h t ht
    simp only [beq_iff_eq]
    omega
  · obtain ⟨hw, -, h⟩ := @cancelTimer_erase q id hn
    exact ⟨hw, h⟩

theorem waiting_cancelSlot (slot : TimerSlot) (q : SchedTimers) :
    (q.cancelSlot slot).waiting = (q.cancelTimer (q.timerIds slot)).1.waiting := by
  simp only [cancelSlot]
  split_ifs <;> rfl

/-- Of timers with ids of their own, the one with this id goes. -/
theorem cancelTimer_filter (h : ∀ t ∈ q.waiting, 0 < t.id) (hd : (q.waiting.map SchedCell.id).Nodup)
    (id : Int) : (q.cancelTimer id).1.waiting = q.waiting.filter (fun t => t.id ≠ id) := by
  rw [(cancelTimer_waiting h id).1]
  generalize q.waiting = as at hd
  induction as with
  | nil => rfl
  | cons t as ih =>
    rw [List.map_cons, List.nodup_cons] at hd
    by_cases ht : t.id = id
    · have hn : ∀ u ∈ as, u.id ≠ id := fun u hu he => hd.1 (List.mem_map.mpr ⟨u, hu, he.trans ht.symm⟩)
      rw [List.eraseP_cons_of_pos (by simpa using ht), List.filter_cons_of_neg (by simpa using ht)]
      exact (List.filter_eq_self.mpr (by simpa using hn)).symm
    · rw [List.eraseP_cons_of_neg (by simpa using ht), List.filter_cons_of_pos (by simpa using ht),
        ih hd.2]

end SchedTimers

namespace Schedule

/-- The timers in order, each with an id of its own that was given out, and the id in a
slot never that of a timer of another slot. -/
structure Orderly (s : Schedule) : Prop where
  count : s.timers.timersCount ≤ maxSchedTimers
  sorted : s.timers.waiting.Pairwise fun a b => ¬ b.before a
  usec : ∀ t ∈ s.timers.waiting, 0 ≤ t.time.tvUsec ∧ t.time.tvUsec ≤ 1000000
  ids : ∀ t ∈ s.timers.waiting, 0 < t.id ∧ t.id ≤ s.timers.timerId
  distinct : (s.timers.waiting.map SchedCell.id).Nodup
  given : 0 < s.timers.timerId
  slots : ∀ slot, s.timers.timerIds slot ≤ s.timers.timerId
  own : ∀ slot, ∀ t ∈ s.timers.waiting, s.timers.timerIds slot = t.id → s.slot? t.id = some slot

variable {s : Schedule} {q : SchedTimers}

theorem Orderly.sub (h : s.Orderly) (hc : q.timersCount ≤ s.timers.timersCount)
    (hs : q.waiting.Sublist s.timers.waiting) (hi : q.timerId = s.timers.timerId)
    (hn : ∀ slot, q.timerIds slot = s.timers.timerIds slot ∨ q.timerIds slot ≤ 0) :
    Orderly ⟨q, s.slot?⟩ := by
  refine ⟨hc.trans h.count, h.sorted.sublist hs, fun t ht => h.usec t (hs.subset ht), fun t ht => ?_,
    h.distinct.sublist (hs.map _), ?_, fun slot => ?_, fun slot t ht he => ?_⟩
  · rw [show (Schedule.mk q s.slot?).timers.timerId = s.timers.timerId from hi]
    exact h.ids t (hs.subset ht)
  · exact hi ▸ h.given
  · have := h.slots slot
    have := h.given
    change q.timerIds slot ≤ q.timerId
    rcases hn slot with hn | hn <;> omega
  · change q.timerIds slot = t.id at he
    rcases hn slot with hn | hn
    · exact h.own slot t (hs.subset ht) (hn ▸ he)
    · have := (h.ids t (hs.subset ht)).1
      omega

theorem Orderly.cancel (h : s.Orderly) (id : Int) : Orderly ⟨(s.timers.cancelTimer id).1, s.slot?⟩ := by
  obtain ⟨hw, hc, hi, hn⟩ := SchedTimers.cancelTimer_waiting (fun t ht => (h.ids t ht).1) id
  exact h.sub hc (hw ▸ List.eraseP_sublist) hi fun slot => .inl (congrFun hn slot)

theorem Orderly.clear (h : s.Orderly) (slot : TimerSlot) {id : Int} (hid : id ≤ 0) :
    Orderly ⟨s.timers.setSlot slot id, s.slot?⟩ := by
  refine h.sub (Nat.le_refl _) (List.Sublist.refl _) rfl fun x => ?_
  by_cases hx : x = slot
  · subst hx
    exact .inr (by simpa [SchedTimers.setSlot] using hid)
  · exact .inl (Function.update_of_ne hx _ _)

theorem Orderly.withdraw (h : s.Orderly) (ts : List SchedCell) :
    Orderly ⟨s.timers.withdraw ts, s.slot?⟩ := by
  induction ts generalizing s with
  | nil => exact h
  | cons t ts ih => exact ih (h.cancel t.id)

/-- What a slot is noted for, beyond the ids that wait, does not matter. -/
theorem Orderly.note (h : s.Orderly) {id : Int} (hid : ∀ t ∈ s.timers.waiting, t.id ≠ id)
    (x : Option TimerSlot) : Orderly ⟨s.timers, Function.update s.slot? id x⟩ := by
  refine ⟨h.count, h.sorted, h.usec, h.ids, h.distinct, h.given, h.slots, fun slot t ht he => ?_⟩
  rw [← h.own slot t ht he]
  exact Function.update_of_ne (hid t ht) _ _

/-- One more timer, with an id that is new. -/
theorem Orderly.add (h : s.Orderly) (clock : Option Timeval) (hc : ∀ now ∈ clock, now.Proper)
    (ms : Nat) (callback : TimerCallback) (x : Option TimerSlot) :
    let r := s.timers.addTimer clock ms callback
    Orderly ⟨r.1, Function.update s.slot? r.2 x⟩ ∧ r.2 ≤ r.1.timerId := by
  have hfail : ∀ t ∈ s.timers.waiting, t.id ≠ -1 := fun t ht he => by
    have := (h.ids t ht).1
    omega
  have hf : Orderly ⟨s.timers, Function.update s.slot? (-1) x⟩ ∧ -1 ≤ s.timers.timerId := by
    have := h.given
    exact ⟨h.note hfail x, by omega⟩
  cases clock with
  | none => exact hf
  | some now =>
    by_cases hl : s.timers.timersCount = maxSchedTimers
    · rw [SchedTimers.addTimer_full hl]
      exact hf
    · obtain ⟨hw, hr, hn, hi, hs⟩ := @SchedTimers.addTimer_waiting s.timers now ms callback hl
      generalize s.timers.addTimer (some now) ms callback = r at hw hr hn hi hs ⊢
      obtain ⟨q, id⟩ := r
      dsimp only at hw hr hn hi hs ⊢
      subst hr
      have hm : ∀ t ∈ q.waiting, t = ⟨now.after ms, some callback, s.timers.timerId + 1⟩ ∨
          t ∈ s.timers.waiting ∧ t.id ≠ s.timers.timerId + 1 := by
        intro t ht
        rw [hw] at ht
        refine ((List.mem_orderedInsert _).mp ht).imp_right fun ht => ⟨ht, ?_⟩
        have := (h.ids t ht).2
        omega
      refine ⟨⟨?_, ?_, fun t ht => ?_, fun t ht => ?_, ?_, ?_, fun slot => ?_, fun slot t ht he => ?_⟩, hi.ge⟩
      · have := h.count
        change q.timersCount ≤ maxSchedTimers
        omega
      · exact hw ▸ pairwise_insert h.sorted
      · rcases hm t ht with rfl | ⟨ht, -⟩
        · exact (hc now rfl).after_usec ms
        · exact h.usec t ht
      · change 0 < t.id ∧ t.id ≤ q.timerId
        have := h.given
        rcases hm t ht with rfl | ⟨ht, -⟩
        · dsimp only
          omega
        · have := h.ids t ht
          omega
      · change (q.waiting.map SchedCell.id).Nodup
        rw [hw, ((List.perm_orderedInsert _ _ _).map SchedCell.id).nodup_iff, List.map_cons, List.nodup_cons]
        refine ⟨fun hx => ?_, h.distinct⟩
        obtain ⟨t, ht, he⟩ := List.mem_map.mp hx
        have := (h.ids t ht).2
        dsimp only at he
        omega
      · have := h.given
        change 0 < q.timerId
        omega
      · have := h.slots slot
        change q.timerIds slot ≤ q.timerId
        rw [hs]
        omega
      · change q.timerIds slot = t.id at he
        rw [hs] at he
        rcases hm t ht with rfl | ⟨ht, hne⟩
        · have := h.slots slot
          dsimp only at he
          omega
        · exact (Function.update_of_ne hne _ _).trans (h.own slot t ht he)

theorem Orderly.arm (h : s.Orderly) (slot : TimerSlot) (clock : Option Timeval)
    (hc : ∀ now ∈ clock, now.Proper) (ms : Nat) (callback : TimerCallback) :
    (s.apply (.arm slot clock ms callback)).Orderly := by
  obtain ⟨ha, hle⟩ := h.add clock hc ms callback (some slot)
  have hn : ∀ x, (s.apply (.arm slot clock ms callback)).timers.timerIds x =
      Function.update (s.timers.addTimer clock ms callback).1.timerIds slot
        (s.timers.addTimer clock ms callback).2 x := fun _ => rfl
  have ho : ∀ id, (s.apply (.arm slot clock ms callback)).slot? id =
      Function.update s.slot? (s.timers.addTimer clock ms callback).2 (some slot) id := fun _ => rfl
  refine ⟨ha.count, ha.sorted, ha.usec, ha.ids, ha.distinct, ha.given, fun x => ?_, fun x t ht he => ?_⟩
  · rw [hn]
    by_cases hx : x = slot
    · rw [hx, Function.update_self]
      exact hle
    · rw [Function.update_of_ne hx]
      exact ha.slots x
  · rw [hn] at he
    by_cases hx : x = slot
    · rw [hx, Function.update_self] at he
      rw [ho, ← he, Function.update_self, hx]
    · rw [Function.update_of_ne hx] at he
      exact ha.own x t ht he

theorem cancelAll_orderly (slot? : Int → Option TimerSlot) : Orderly ⟨.cancelAllTimers, slot?⟩ := by
  have hn : ∀ t, t ∉ SchedTimers.cancelAllTimers.waiting := fun t => List.not_mem_nil
  refine ⟨Nat.zero_le _, .nil, fun t ht => absurd ht (hn t), fun t ht => absurd ht (hn t), List.nodup_nil,
    Int.one_pos, fun _ => Int.zero_le_ofNat 1, fun _ t ht => absurd ht (hn t)⟩

/-- One operation keeps the timers in order. -/
theorem Orderly.apply (h : s.Orderly) (op : SchedOp) (hc : ∀ now ∈ op.clock?, now.Proper) :
    (s.apply op).Orderly := by
  cases op with
  | arm slot clock ms callback => exact h.arm slot clock hc ms callback
  | add clock ms callback => exact (h.add clock hc ms callback none).1
  | cancelSlot slot =>
    have hx := h.cancel (s.timers.timerIds slot)
    simp only [Schedule.apply, SchedTimers.cancelSlot]
    split_ifs
    · exact hx.clear slot (Int.le_refl 0)
    · exact hx
  | cancel id => exact h.cancel id
  | cancelAll => exact cancelAll_orderly s.slot?
  | clear slot => exact h.clear slot (Int.le_refl 0)
  | expire now => exact h.withdraw _

theorem new_orderly : new.Orderly := cancelAll_orderly _

theorem applyAll_orderly (ops : List SchedOp) (hc : ∀ op ∈ ops, ∀ now ∈ op.clock?, now.Proper)
    (h : s.Orderly) : (s.applyAll ops).Orderly := by
  induction ops generalizing s with
  | nil => exact h
  | cons op ops ih =>
    exact ih (fun o ho => hc o (List.mem_cons_of_mem _ ho)) (h.apply op (hc op List.mem_cons_self))

/-- What the rest of the code takes the timers for. -/
structure Sound (s : Schedule) : Prop where
  count : s.timers.timersCount ≤ maxSchedTimers
  sorted : s.timers.waiting.Pairwise fun a b => a.time.micros ≤ b.time.micros
  distinct : (s.timers.waiting.map SchedCell.id).Nodup
  ids : ∀ t ∈ s.timers.waiting, 0 < t.id ∧ t.id ≤ s.timers.timerId
  adds : ∀ (now : Timeval) (ms : Nat) callback, now.Proper → s.timers.timersCount < maxSchedTimers →
    ∃ as t bs, s.timers.waiting = as ++ bs ∧
      (s.timers.addTimer (some now) ms callback).1.waiting = as ++ t :: bs ∧
      (s.timers.addTimer (some now) ms callback).2 = t.id ∧ t.callback = some callback ∧
      t.time.micros = now.micros + 1000 * ms
  cancels : ∀ id, (s.timers.cancelTimer id).1.waiting = s.timers.waiting.filter fun t => t.id ≠ id
  slots : ∀ slot, ∀ t ∈ s.timers.waiting, t ∉ (s.timers.cancelSlot slot).waiting →
    s.slot? t.id = some slot

theorem Orderly.sound (h : s.Orderly) : s.Sound := by
  have hp : ∀ t ∈ s.timers.waiting, 0 < t.id := fun t ht => (h.ids t ht).1
  have hf := SchedTimers.cancelTimer_filter hp h.distinct
  refine ⟨h.count, ?_, h.distinct, h.ids, fun now ms callback hn hl => ?_, hf, fun slot t ht hc => ?_⟩
  · refine h.sorted.imp_of_mem fun ha hb hab => ?_
    exact Timeval.micros_le (h.usec _ ha).2 (h.usec _ hb).1 hab
  · obtain ⟨hw, hr, -⟩ := @SchedTimers.addTimer_waiting s.timers now ms callback hl.ne
    rw [orderedInsert_findIdx] at hw
    exact ⟨_, _, _, (List.take_append_drop _ _).symm, hw, hr, rfl, hn.after_micros ms⟩
  · by_cases he : s.timers.timerIds slot = t.id
    · exact h.own slot t ht he
    · rw [SchedTimers.waiting_cancelSlot, hf] at hc
      exact absurd (List.mem_filter.mpr ⟨ht, by simpa using Ne.symm he⟩) hc

/-- The timers of a channel are in order after whatever is done to them. -/
theorem applyAll_sound (ops : List SchedOp) (hc : ∀ op ∈ ops, ∀ now ∈ op.clock?, now.Proper) :
    (new.applyAll ops).Sound := (applyAll_orderly ops hc new_orderly).sound

/-- A timer that is due exactly a second later, one before it, and a stale slot. -/
theorem applyAll_sound_stale : (new.applyAll [.arm .r2Seize (some ⟨7, 0⟩) 1000 .seizeTimeoutExpired,
    .arm .mfBackCycle (some ⟨7, 500000⟩) 500 .mfBackCycleTimeoutExpired, .expire ⟨8, 0⟩,
    .add (some ⟨8, 999999⟩) 200 .r2SetCallDown, .cancelSlot .r2Seize]).Sound := by
  refine applyAll_sound _ fun op ho now hn => ?_
  simp only [List.mem_cons, List.not_mem_nil, or_false] at ho
  rcases ho with rfl | rfl | rfl | rfl | rfl
  · obtain rfl := Option.some.inj hn
    exact ⟨by decide, by decide⟩
  · obtain rfl := Option.some.inj hn
    exact ⟨by decide, by decide⟩
  · exact nomatch hn
  · obtain rfl := Option.some.inj hn
    exact ⟨by decide, by decide⟩
  · exact nomatch hn

end Schedule

/-- The cell of a timer that waits. -/
def SchedTimer.cell (t : SchedTimer) : SchedCell := ⟨t.time, some t.callback, t.id⟩

namespace SchedTimers

/-- The array holds the queue, first to last. -/
structure Holds (q : SchedTimers) (r : TimerQueue) : Prop where
  waiting : q.waiting = r.schedTimers.map SchedTimer.cell
  timerId : q.timerId = r.timerId
  timerIds : q.timerIds = r.timerIds

variable {q : SchedTimers} {r : TimerQueue}

theorem Holds.timersCount (h : q.Holds r) : q.timersCount = r.schedTimers.length := by
  rw [← length_waiting, h.waiting, List.length_map]

theorem Holds.setSlot (h : q.Holds r) (slot : TimerSlot) (id : Int) :
    (q.setSlot slot id).Holds (r.setSlot slot id) := by
  refine ⟨h.waiting, h.timerId, ?_⟩
  funext s
  simp only [SchedTimers.setSlot, TimerQueue.setSlot, Function.update_apply, h.timerIds]

theorem orderedInsert_map_cell (ts : List SchedTimer) (t : SchedTimer) :
    (ts.orderedInsert (fun a b => a.time.before b.time) t).map SchedTimer.cell =
      (ts.map SchedTimer.cell).orderedInsert SchedCell.before t.cell := by
  induction ts with
  | nil => rfl
  | cons u ts ih =>
    rw [List.orderedInsert_cons, List.map_cons, List.orderedInsert_cons]
    by_cases h : t.time.before u.time
    · rw [if_pos h, if_pos (show t.cell.before u.cell from h)]
      rfl
    · rw [if_neg h, if_neg (show ¬ t.cell.before u.cell from h), List.map_cons, ih]

/-- A timer is scheduled in the array as in the queue. -/
theorem Holds.addTimer (h : q.Holds r) (now : Timeval) (ms : Nat) (callback : TimerCallback) :
    (q.addTimer (some now) ms callback).1.Holds (r.addTimer now ms callback).1 ∧
      (q.addTimer (some now) ms callback).2 = (r.addTimer now ms callback).2 := by
  by_cases hf : q.timersCount = maxSchedTimers
  · rw [addTimer_full hf, TimerQueue.addTimer, if_pos (h.timersCount ▸ hf)]
    exact ⟨h, rfl⟩
  · obtain ⟨hw, hr, -, hi, hs⟩ := @addTimer_waiting q now ms callback hf
    rw [TimerQueue.addTimer, if_neg (h.timersCount ▸ hf)]
    refine ⟨⟨?_, ?_, ?_⟩, ?_⟩
    · rw [hw, h.waiting, h.timerId]
      exact (orderedInsert_map_cell _ ⟨now.after ms, callback, r.timerId + 1⟩).symm
    · rw [hi, h.timerId]
      rfl
    · rw [hs, h.timerIds]
    · rw [hr, h.timerId]
      rfl

theorem eraseP_map_cell (ts : List SchedTimer) (id : Int) :
    (ts.map SchedTimer.cell).eraseP (fun t => t.id == id) =
      (ts.eraseP fun t => (t.id : Int) == id).map SchedTimer.cell := List.eraseP_map ..

/-- A timer is cancelled by its slot in the array as in the queue. -/
theorem Holds.cancelSlot (h : q.Holds r) (slot : TimerSlot) :
    (q.cancelSlot slot).Holds (r.cancelTimer slot) := by
  simp only [SchedTimers.cancelSlot, TimerQueue.cancelTimer, h.timerIds]
  by_cases hn : r.timerIds slot < 1
  · rw [cancelTimer_none hn, if_pos hn]
    exact h
  · obtain ⟨hw, hb, -, hi, hs⟩ := @cancelTimer_erase q (r.timerIds slot) hn
    have he : (q.cancelTimer (r.timerIds slot)).1.Holds (r.removeId (r.timerIds slot)) := by
      refine ⟨?_, hi.trans h.timerId, hs.trans h.timerIds⟩
      rw [hw, h.waiting]
      exact eraseP_map_cell _ _
    have ha : (q.cancelTimer (r.timerIds slot)).2 =
        r.schedTimers.any fun t => (t.id : Int) == r.timerIds slot := by
      rw [hb, h.waiting, List.any_map]
      rfl
    rw [if_neg hn, ha]
    split_ifs with hf
    · exact he.setSlot slot 0
    · have hr : r.removeId (r.timerIds slot) = r := by
        have hx := List.eraseP_of_forall_not fun t ht => List.any_eq_false.mp (Bool.eq_false_of_not_eq_true hf) t ht
        rw [TimerQueue.removeId, hx]
      rwa [hr] at he

end SchedTimers

end OpenR2
