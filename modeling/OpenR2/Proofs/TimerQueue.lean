import OpenR2.Dispatch

namespace OpenR2

/-- The timers whose ids the code keeps in a slot. -/
def TimerSlot.purpose : TimerSlot → TimerCallback
  | .mfFwdSafety => .mfFwdSafetyTimeoutExpired
  | .r2Seize => .seizeTimeoutExpired
  | .r2SeizePersist => .r2SeizePersistExpired
  | .r2Answer => .r2AnswerTimeoutExpired
  | .r2MeteringPulse => .r2MeteringPulse
  | .r2DoubleAnswer => .doubleAnswerHandler
  | .mfBackResumeCycle => .mfBackResumeCycle
  | .mfBackCycle => .mfBackCycleTimeoutExpired
  | .r2AnswerDelay => .readyToAnswer
  | .casPersistenceCheck => .persistenceCheckExpired
  | .dtmfStartDial => .startDialingDtmf

theorem TimerSlot.purpose_inj {s t : TimerSlot} (h : s.purpose = t.purpose) : s = t := by
  cases s <;> cases t <;> first | rfl | exact nomatch h

namespace TimerOp

/-- What the code does to the timers: the slot of a timer is that of its purpose, only
`r2_set_call_down` goes without a slot, and a slot written by hand holds no id. -/
def Proper : TimerOp → Prop
  | .arm slot _ _ callback => callback = slot.purpose
  | .add _ _ callback => callback = .r2SetCallDown
  | .mark _ id => id ≤ 0
  | _ => True

/-- The purpose whose timer the operation replaces, or forgets. -/
def purpose? : TimerOp → Option TimerCallback
  | .arm slot _ _ _ | .mark slot _ => some slot.purpose
  | .add _ _ callback => some callback
  | .cancel _ | .cancelAll => none

end TimerOp

namespace TimerQueue

/-- The ids in the queue and in the slots are ids that were given out, and the id in a
slot is never that of a timer of another purpose. -/
structure Kept (q : TimerQueue) : Prop where
  ids : ∀ t ∈ q.schedTimers, 0 < t.id ∧ t.id ≤ q.timerId
  distinct : (q.schedTimers.map SchedTimer.id).Nodup
  slots : ∀ s, q.timerIds s ≤ q.timerId
  purpose : ∀ s, ∀ t ∈ q.schedTimers, q.timerIds s = t.id → t.callback = s.purpose

/-- One timer for a purpose at most, and each can be found by its slot. -/
structure Tidy (q : TimerQueue) : Prop extends q.Kept where
  single : q.pending.Nodup
  slotted : ∀ s, ∀ t ∈ q.schedTimers, t.callback = s.purpose → q.timerIds s = t.id

variable {q : TimerQueue}

/-- No timer is added, and none is moved. -/
theorem cancelTimer_sublist (q : TimerQueue) (slot : TimerSlot) :
    (q.cancelTimer slot).schedTimers.Sublist q.schedTimers := by
  simp only [TimerQueue.cancelTimer]
  split_ifs
  · exact List.Sublist.refl _
  · exact List.eraseP_sublist
  · exact List.Sublist.refl _

theorem kept_cancelAll : cancelAllTimers.Kept :=
  ⟨by simp [cancelAllTimers], by simp [cancelAllTimers], by simp [cancelAllTimers],
    by simp [cancelAllTimers]⟩

theorem tidy_cancelAll : cancelAllTimers.Tidy :=
  ⟨kept_cancelAll, by simp [cancelAllTimers, pending], by simp [cancelAllTimers]⟩

/-- Timers that leave. -/
theorem Kept.sub (h : q.Kept) {ts : List SchedTimer} (hs : ts.Sublist q.schedTimers) :
    Kept { q with schedTimers := ts } :=
  ⟨fun t ht => h.ids t (hs.subset ht), h.distinct.sublist (hs.map _), h.slots,
    fun s t ht => h.purpose s t (hs.subset ht)⟩

theorem Tidy.sub (h : q.Tidy) {ts : List SchedTimer} (hs : ts.Sublist q.schedTimers) :
    Tidy { q with schedTimers := ts } :=
  ⟨h.toKept.sub hs, h.single.sublist (hs.map _), fun s t ht => h.slotted s t (hs.subset ht)⟩

theorem Kept.removeId (h : q.Kept) (id : Int) : (q.removeId id).Kept := h.sub List.eraseP_sublist

theorem Tidy.removeId (h : q.Tidy) (id : Int) : (q.removeId id).Tidy := h.sub List.eraseP_sublist

/-- A slot that gives up its id. -/
theorem Kept.mark (h : q.Kept) (slot : TimerSlot) {id : Int} (hi : id ≤ 0) :
    (q.setSlot slot id).Kept := by
  refine ⟨h.ids, h.distinct, fun s => ?_, fun s t ht he => ?_⟩
  · simp only [setSlot]
    split_ifs
    · omega
    · exact h.slots s
  · simp only [setSlot] at he ht
    split_ifs at he
    · have := (h.ids t ht).1
      omega
    · exact h.purpose s t ht he

theorem Tidy.mark (h : q.Tidy) (slot : TimerSlot) {id : Int} (hi : id ≤ 0)
    (hp : slot.purpose ∉ q.pending) : (q.setSlot slot id).Tidy := by
  refine ⟨h.toKept.mark slot hi, h.single, fun s t ht he => ?_⟩
  have hs : s ≠ slot := by
    rintro rfl
    exact hp (List.mem_map.mpr ⟨t, ht, he⟩)
  simp only [setSlot, if_neg hs]
  exact h.slotted s t ht he

theorem Kept.cancelTimer (h : q.Kept) (slot : TimerSlot) : (q.cancelTimer slot).Kept := by
  unfold TimerQueue.cancelTimer
  dsimp only
  split_ifs
  · exact h
  · exact (h.removeId _).mark slot le_rfl
  · exact h

/-- What is removed has the id asked for, and what has that id is removed. -/
theorem Kept.mem_removeId (h : q.Kept) {id : Int} {t : SchedTimer} :
    t ∈ (q.removeId id).schedTimers ↔ t ∈ q.schedTimers ∧ (t.id : Int) ≠ id := by
  obtain ⟨ts, n, ids⟩ := q
  have hd : (ts.map SchedTimer.id).Nodup := h.distinct
  clear h
  change t ∈ ts.eraseP _ ↔ t ∈ ts ∧ _
  induction ts with
  | nil => simp
  | cons u ts ih =>
    rw [List.map_cons, List.nodup_cons] at hd
    by_cases hu : (u.id : Int) = id
    · have hn : ∀ v ∈ ts, (v.id : Int) ≠ id := by
        intro v hv he
        exact hd.1 (List.mem_map.mpr ⟨v, hv, by omega⟩)
      rw [List.eraseP_cons_of_pos (by simpa using hu), List.mem_cons]
      constructor
      · exact fun ht => ⟨.inr ht, hn t ht⟩
      · rintro ⟨rfl | ht, he⟩
        · exact absurd hu he
        · exact ht
    · rw [List.eraseP_cons_of_neg (by simpa using hu), List.mem_cons, List.mem_cons, ih hd.2]
      constructor
      · rintro (rfl | ⟨ht, he⟩)
        · exact ⟨.inl rfl, hu⟩
        · exact ⟨.inr ht, he⟩
      · rintro ⟨rfl | ht, he⟩
        · exact .inl rfl
        · exact .inr ⟨ht, he⟩

/-- Nothing but the slot's own timer is cancelled by the slot. -/
theorem Kept.mem_cancelTimer (h : q.Kept) {slot : TimerSlot} {t : SchedTimer}
    (ht : t ∈ q.schedTimers) (hs : t.callback ≠ slot.purpose) :
    t ∈ (q.cancelTimer slot).schedTimers := by
  have hn : (t.id : Int) ≠ q.timerIds slot := fun he => hs (h.purpose slot t ht he.symm)
  unfold TimerQueue.cancelTimer
  dsimp only
  split_ifs
  · exact ht
  · exact h.mem_removeId.mpr ⟨ht, hn⟩
  · exact ht

theorem Tidy.cancelTimer (h : q.Tidy) (slot : TimerSlot) : (q.cancelTimer slot).Tidy := by
  unfold TimerQueue.cancelTimer
  dsimp only
  split_ifs
  · exact h
  · refine (h.removeId _).mark slot le_rfl fun hp => ?_
    obtain ⟨t, ht, he⟩ := List.mem_map.mp hp
    obtain ⟨ht, hn⟩ := h.mem_removeId.mp ht
    exact hn (h.slotted slot t ht he).symm
  · exact h

/-- A slot that holds the ids of all timers of its purpose finds them. -/
theorem Kept.cancelled (h : q.Kept) (slot : TimerSlot)
    (hs : ∀ t ∈ q.schedTimers, t.callback = slot.purpose → q.timerIds slot = t.id) :
    slot.purpose ∉ (q.cancelTimer slot).pending := by
  intro hp
  obtain ⟨t, ht, he⟩ := List.mem_map.mp hp
  unfold TimerQueue.cancelTimer at ht
  dsimp only at ht
  split_ifs at ht with h1 h2
  · have := hs t ht he
    have := (h.ids t ht).1
    omega
  · obtain ⟨ht, hn⟩ := h.mem_removeId.mp ht
    exact hn (hs t ht he).symm
  · exact h2 (List.any_eq_true.mpr ⟨t, ht, by simp [hs t ht he]⟩)

/-- In a tidy queue a slot finds all there is of its purpose. -/
theorem Tidy.cancelled (h : q.Tidy) (slot : TimerSlot) :
    slot.purpose ∉ (q.cancelTimer slot).pending := h.toKept.cancelled slot (h.slotted slot)

/-- The timers after one more was asked for. -/
theorem mem_addTimer {now : Timeval} {ms : Nat} {callback : TimerCallback} {t : SchedTimer}
    (ht : t ∈ (q.addTimer now ms callback).1.schedTimers) :
    t ∈ q.schedTimers ∨ q.schedTimers.length ≠ maxSchedTimers ∧
      t = ⟨now.after ms, callback, q.timerId + 1⟩ := by
  unfold addTimer at ht
  dsimp only at ht
  split_ifs at ht with hf
  · exact .inl ht
  · rcases (List.mem_orderedInsert _).mp ht with rfl | ht
    · exact .inr ⟨hf, rfl⟩
    · exact .inl ht

theorem Kept.addTimer (h : q.Kept) (now : Timeval) (ms : Nat) (callback : TimerCallback) :
    (q.addTimer now ms callback).1.Kept := by
  have hm := @mem_addTimer q now ms callback
  unfold TimerQueue.addTimer at hm ⊢
  dsimp only at hm ⊢
  split_ifs at hm ⊢ with hf
  · exact h
  refine ⟨fun t ht => ?_, ?_, fun s => ?_, fun s t ht he => ?_⟩
  · rcases hm ht with ht | ⟨-, rfl⟩
    · have := h.ids t ht
      dsimp only
      omega
    · simp
  · refine (List.Perm.nodup_iff ((List.perm_orderedInsert _ _ _).map _)).mpr ?_
    rw [List.map_cons, List.nodup_cons]
    refine ⟨fun hi => ?_, h.distinct⟩
    obtain ⟨t, ht, he⟩ := List.mem_map.mp hi
    have := (h.ids t ht).2
    dsimp only at he
    omega
  · have := h.slots s
    dsimp only
    omega
  · rcases hm ht with ht | ⟨-, rfl⟩
    · exact h.purpose s t ht he
    · have := h.slots s
      dsimp only at he
      omega

/-- A timer is scheduled for a purpose that has none. -/
theorem pending_addTimer_perm (now : Timeval) (ms : Nat) (callback : TimerCallback)
    (hf : q.schedTimers.length ≠ maxSchedTimers) :
    (q.addTimer now ms callback).1.pending.Perm (callback :: q.pending) := by
  unfold addTimer pending
  dsimp only
  rw [if_neg hf]
  exact (List.perm_orderedInsert _ _ _).map _

theorem addTimer_full (now : Timeval) (ms : Nat) (callback : TimerCallback)
    (hf : q.schedTimers.length = maxSchedTimers) : q.addTimer now ms callback = (q, -1) := by
  unfold addTimer
  rw [if_pos hf]

theorem addTimer_id (now : Timeval) (ms : Nat) (callback : TimerCallback)
    (hf : q.schedTimers.length ≠ maxSchedTimers) :
    (q.addTimer now ms callback).2 = (q.timerId + 1 : Nat) ∧
      (q.addTimer now ms callback).1.timerId = q.timerId + 1 ∧
      (q.addTimer now ms callback).1.timerIds = q.timerIds := by
  unfold addTimer
  rw [if_neg hf]
  exact ⟨rfl, rfl, rfl⟩

theorem Tidy.addTimer (h : q.Tidy) (now : Timeval) (ms : Nat) {callback : TimerCallback}
    (hp : callback ∉ q.pending) (hs : ∀ s : TimerSlot, callback ≠ s.purpose) :
    (q.addTimer now ms callback).1.Tidy := by
  by_cases hf : q.schedTimers.length = maxSchedTimers
  · rw [addTimer_full now ms callback hf]
    exact h
  · refine ⟨h.toKept.addTimer now ms callback, ?_, fun s t ht he => ?_⟩
    · exact (pending_addTimer_perm now ms callback hf).nodup_iff.mpr
        (List.nodup_cons.mpr ⟨hp, h.single⟩)
    · rw [(addTimer_id now ms callback hf).2.2]
      rcases mem_addTimer ht with ht | ⟨-, rfl⟩
      · exact h.slotted s t ht he
      · exact absurd he (hs s)

theorem Kept.arm (h : q.Kept) (slot : TimerSlot) (now : Timeval) (ms : Nat) :
    ((q.addTimer now ms slot.purpose).1.setSlot slot
      (q.addTimer now ms slot.purpose).2).Kept := by
  by_cases hf : q.schedTimers.length = maxSchedTimers
  · rw [addTimer_full now ms slot.purpose hf]
    exact h.mark slot (show (-1 : Int) ≤ 0 by decide)
  · have ha := h.addTimer now ms slot.purpose
    obtain ⟨hi, hn, hs⟩ := addTimer_id now ms slot.purpose hf
    refine ⟨ha.ids, ha.distinct, fun s => ?_, fun s t ht he => ?_⟩
    · simp only [setSlot]
      split_ifs
      · rw [hi, hn]
      · exact ha.slots s
    · simp only [setSlot] at he ht
      split_ifs at he with hx
      · subst hx
        rcases mem_addTimer ht with ht | ⟨-, rfl⟩
        · have := (h.ids t ht).2
          omega
        · rfl
      · exact ha.purpose s t ht he

theorem Tidy.arm (h : q.Tidy) (slot : TimerSlot) (now : Timeval) (ms : Nat)
    (hp : slot.purpose ∉ q.pending) :
    ((q.addTimer now ms slot.purpose).1.setSlot slot
      (q.addTimer now ms slot.purpose).2).Tidy := by
  by_cases hf : q.schedTimers.length = maxSchedTimers
  · rw [addTimer_full now ms slot.purpose hf]
    exact h.mark slot (show (-1 : Int) ≤ 0 by decide) hp
  · refine ⟨h.toKept.arm slot now ms, ?_, fun s t ht he => ?_⟩
    · exact (pending_addTimer_perm now ms slot.purpose hf).nodup_iff.mpr
        (List.nodup_cons.mpr ⟨hp, h.single⟩)
    · obtain ⟨hi, -, hs⟩ := addTimer_id now ms slot.purpose hf
      simp only [setSlot]
      rcases mem_addTimer ht with hq | ⟨-, rfl⟩
      · have hn : s ≠ slot := by
          rintro rfl
          exact hp (List.mem_map.mpr ⟨t, hq, he⟩)
        rw [if_neg hn, hs]
        exact h.slotted s t hq he
      · rw [if_pos (TimerSlot.purpose_inj he).symm, hi]

/-- What one operation of the code keeps, whatever waits. -/
theorem Kept.apply (h : q.Kept) {op : TimerOp} (hp : op.Proper) : (q.apply op).Kept := by
  cases op with
  | arm slot now ms callback =>
    obtain rfl : callback = slot.purpose := hp
    exact h.arm slot now ms
  | add now ms callback => exact h.addTimer now ms callback
  | cancel slot => exact h.cancelTimer slot
  | cancelAll => exact kept_cancelAll
  | mark slot id => exact h.mark slot hp

/-- One operation leaves the queue tidy if nothing waits for the purpose it serves. -/
theorem Tidy.apply (h : q.Tidy) {op : TimerOp} (hp : op.Proper)
    (hf : ∀ cb ∈ op.purpose?, cb ∉ q.pending) : (q.apply op).Tidy := by
  cases op with
  | arm slot now ms callback =>
    obtain rfl : callback = slot.purpose := hp
    exact h.arm slot now ms (hf _ rfl)
  | add now ms callback =>
    obtain rfl : callback = .r2SetCallDown := hp
    exact h.addTimer now ms (hf _ rfl) fun s => by cases s <;> simp [TimerSlot.purpose]
  | cancel slot => exact h.cancelTimer slot
  | cancelAll => exact tidy_cancelAll
  | mark slot id => exact h.mark slot hp (hf _ rfl)

/-- An operation adds its own purpose at most. -/
theorem pending_apply {op : TimerOp} (hp : op.Proper) {cb : TimerCallback}
    (h : cb ∈ (q.apply op).pending) : cb ∈ q.pending ∨ cb ∈ op.purpose? := by
  have hadd : ∀ now ms callback, cb ∈ (q.addTimer now ms callback).1.pending →
      cb ∈ q.pending ∨ cb = callback := by
    intro now ms callback h
    obtain ⟨t, ht, rfl⟩ := List.mem_map.mp h
    rcases mem_addTimer ht with ht | ⟨-, rfl⟩
    · exact .inl (List.mem_map.mpr ⟨t, ht, rfl⟩)
    · exact .inr rfl
  cases op with
  | arm slot now ms callback =>
    obtain rfl : callback = slot.purpose := hp
    exact (hadd now ms _ h).imp_right fun he => by rw [he]; rfl
  | add now ms callback => exact (hadd now ms _ h).imp_right fun he => by rw [he]; rfl
  | cancel slot =>
    refine .inl ?_
    obtain ⟨t, ht, rfl⟩ := List.mem_map.mp h
    simp only [apply, TimerQueue.cancelTimer] at ht
    split_ifs at ht
    · exact List.mem_map.mpr ⟨t, ht, rfl⟩
    · exact List.mem_map.mpr ⟨t, List.mem_of_mem_eraseP ht, rfl⟩
    · exact List.mem_map.mpr ⟨t, ht, rfl⟩
  | cancelAll => exact absurd h (by simp [apply, cancelAllTimers, pending])
  | mark slot id => exact .inl h

section Sequences

variable {ops : List TimerOp}

theorem Kept.applyAll (h : q.Kept) (hp : ∀ op ∈ ops, op.Proper) : (q.applyAll ops).Kept := by
  induction ops generalizing q with
  | nil => exact h
  | cons op ops ih =>
    exact ih (h.apply (hp op List.mem_cons_self)) fun o ho => hp o (List.mem_cons_of_mem _ ho)

theorem pending_applyAll (hp : ∀ op ∈ ops, op.Proper) {cb : TimerCallback}
    (h : cb ∈ (q.applyAll ops).pending) : cb ∈ q.pending ∨ cb ∈ ops.filterMap TimerOp.purpose? := by
  induction ops generalizing q with
  | nil => exact .inl h
  | cons op ops ih =>
    rcases ih (fun o ho => hp o (List.mem_cons_of_mem _ ho)) h with h | h
    · refine (pending_apply (hp op List.mem_cons_self) h).imp_right fun hc => ?_
      exact List.mem_filterMap.mpr ⟨op, List.mem_cons_self, hc⟩
    · obtain ⟨o, ho, hc⟩ := List.mem_filterMap.mp h
      exact .inr (List.mem_filterMap.mpr ⟨o, List.mem_cons_of_mem _ ho, hc⟩)

/-- Operations for different purposes, for none of which a timer waits. -/
theorem Tidy.applyAll (h : q.Tidy) (hp : ∀ op ∈ ops, op.Proper)
    (hn : (ops.filterMap TimerOp.purpose?).Nodup)
    (hf : ∀ cb ∈ ops.filterMap TimerOp.purpose?, cb ∉ q.pending) : (q.applyAll ops).Tidy := by
  induction ops generalizing q with
  | nil => exact h
  | cons op ops ih =>
    have hop : op.Proper := hp op List.mem_cons_self
    have hin : ∀ cb ∈ op.purpose?, cb ∈ (op :: ops).filterMap TimerOp.purpose? := fun cb hc =>
      List.mem_filterMap.mpr ⟨op, List.mem_cons_self, hc⟩
    refine ih (h.apply hop fun cb hc => hf cb (hin cb hc))
      (fun o ho => hp o (List.mem_cons_of_mem _ ho)) ?_ fun cb hc hq => ?_
    · cases hx : op.purpose? with
      | none => rwa [List.filterMap_cons_none hx] at hn
      | some cb =>
        rw [List.filterMap_cons_some hx] at hn
        exact (List.nodup_cons.mp hn).2
    · rcases pending_apply hop hq with hq | hq
      · obtain ⟨o, ho, hc⟩ := List.mem_filterMap.mp hc
        exact hf cb (List.mem_filterMap.mpr ⟨o, List.mem_cons_of_mem _ ho, hc⟩) hq
      · rw [List.filterMap_cons_some hq] at hn
        exact (List.nodup_cons.mp hn).1 hc

theorem length_apply (op : TimerOp) :
    (q.apply op).schedTimers.length ≤ q.schedTimers.length + op.purpose?.toList.length := by
  have hadd : ∀ now ms callback, (q.addTimer now ms callback).1.schedTimers.length ≤
      q.schedTimers.length + 1 := by
    intro now ms callback
    unfold TimerQueue.addTimer
    split_ifs
    · exact Nat.le_succ _
    · exact (List.orderedInsert_length _ _ _).le
  cases op with
  | arm slot now ms callback => exact hadd now ms callback
  | add now ms callback => exact hadd now ms callback
  | cancel slot =>
    simp only [apply, TimerQueue.cancelTimer]
    split_ifs
    · exact Nat.le_add_right _ _
    · exact (List.length_eraseP_le).trans (Nat.le_add_right _ _)
    · exact Nat.le_add_right _ _
  | cancelAll => exact Nat.zero_le _
  | mark slot id => exact Nat.le_add_right _ _

theorem length_applyAll (ops : List TimerOp) :
    (q.applyAll ops).schedTimers.length ≤
      q.schedTimers.length + (ops.filterMap TimerOp.purpose?).length := by
  induction ops generalizing q with
  | nil => exact Nat.le_add_right _ _
  | cons op ops ih =>
    have h1 := length_apply (q := q) op
    have h2 := ih (q := q.apply op)
    change ((q.apply op).applyAll ops).schedTimers.length ≤ _
    cases hx : op.purpose? with
    | none =>
      rw [List.filterMap_cons_none hx]
      simp only [hx, Option.toList_none, List.length_nil] at h1
      omega
    | some cb =>
      rw [List.filterMap_cons_some hx, List.length_cons]
      simp only [hx, Option.toList_some, List.length_singleton] at h1
      omega

/-- Whenever a timer is asked for in these operations, there is room for it. -/
def Roomy (q : TimerQueue) (ops : List TimerOp) : Prop :=
  ∀ pre op post, ops = pre ++ op :: post → op.purpose? ≠ none →
    (q.applyAll pre).schedTimers.length < maxSchedTimers

theorem roomy_of_length
    (h : q.schedTimers.length + (ops.filterMap TimerOp.purpose?).length ≤ maxSchedTimers) :
    q.Roomy ops := by
  rintro pre op post rfl hop
  obtain ⟨cb, hcb⟩ := Option.ne_none_iff_exists'.mp hop
  have hl := length_applyAll (q := q) pre
  rw [List.filterMap_append, List.filterMap_cons_some hcb, List.length_append, List.length_cons] at h
  omega

theorem Roomy.append {ops' : List TimerOp} (h : q.Roomy ops) (h' : (q.applyAll ops).Roomy ops') :
    q.Roomy (ops ++ ops') := by
  rintro pre op post he hop
  rcases List.append_eq_append_iff.mp he with ⟨l, rfl, hl⟩ | ⟨l, hl, hr⟩
  · have := h' l op post hl hop
    unfold applyAll at this ⊢
    rwa [List.foldl_append]
  · cases l with
    | nil =>
      rw [List.append_nil] at hl
      subst hl
      exact h' [] op post hr.symm hop
    | cons o l =>
      obtain ⟨rfl, -⟩ := List.cons.inj hr
      exact h pre op l hl hop

end Sequences

end TimerQueue

end OpenR2
