import Mathlib.Order.Basic
import OpenR2.Proofs.SchedTimers

namespace OpenR2

namespace Timeval

variable {a b now : Timeval}

/-- Truncation is toward zero. -/
theorem tdiv_cases (x : Int) : 0 ≤ x ∧ x.tdiv 1000 = x / 1000 ∨ x < 0 ∧ x.tdiv 1000 = -(-x / 1000) := by
  rcases Int.lt_or_le x 0 with h | h
  · refine .inr ⟨h, ?_⟩
    have hn := Int.neg_tdiv (-x) 1000
    rw [Int.neg_neg, Int.tdiv_eq_ediv_of_nonneg (show 0 ≤ -x by omega)] at hn
    exact hn
  · exact .inl ⟨h, Int.tdiv_eq_ediv_of_nonneg h⟩

/-- A time as the timers have it: the carry may leave a whole million. -/
def Carried (t : Timeval) : Prop := 0 ≤ t.tvUsec ∧ t.tvUsec ≤ 1000000

/-- What is left is right up to a millisecond. -/
theorem msLeft_close (ha : a.Carried) (hn : now.Proper) :
    (a.micros ≤ now.micros → a.msLeft now ≤ 0) ∧ (a.msLeft now ≤ 0 → a.micros < now.micros + 1000) ∧
      (a.micros < now.micros + 1000 → a.msLeft now ≤ 1) := by
  obtain ⟨a0, a1⟩ := ha
  obtain ⟨n0, n1⟩ := hn
  have ht := tdiv_cases (a.tvUsec - now.tvUsec)
  simp only [micros, msLeft]
  omega

/-- Less is left of what is due first, across seconds too. -/
theorem msLeft_mono (ha : a.Carried) (hb : b.Carried) (hn : now.Proper) (h : ¬ b.before a) :
    a.msLeft now ≤ b.msLeft now := by
  obtain ⟨a0, a1⟩ := ha
  obtain ⟨b0, b1⟩ := hb
  obtain ⟨n0, n1⟩ := hn
  have hta := tdiv_cases (a.tvUsec - now.tvUsec)
  have htb := tdiv_cases (b.tvUsec - now.tvUsec)
  unfold before at h
  simp only [msLeft]
  split_ifs at h <;> omega

theorem eq_of_not_before (h : ¬ a.before b) (h' : ¬ b.before a) : a = b := by
  obtain ⟨s, u⟩ := a
  obtain ⟨s', u'⟩ := b
  unfold before at h h'
  dsimp only at h h'
  split_ifs at h h' <;> first | omega | (congr 1; omega)

end Timeval

section Dispatch

variable {now : Timeval} {q : SchedTimers} {s : Schedule}

theorem filter_prefix {α : Type*} {p : α → Bool} {as : List α} (h : as.Pairwise fun a b => p b → p a) :
    as.filter p <+: as := by
  induction as with
  | nil => exact List.prefix_refl _
  | cons a as ih =>
    obtain ⟨ha, has⟩ := List.pairwise_cons.mp h
    by_cases hp : p a
    · rw [List.filter_cons_of_pos hp]
      exact (List.prefix_cons_inj a).mpr (ih has)
    · have hn : as.filter p = [] := List.filter_eq_nil_iff.mpr fun b hb hpb => hp (ha b hb hpb)
      rw [List.filter_cons_of_neg hp, hn]
      exact List.nil_prefix

/-- The dispatch takes the timers that are due, and there are some when the next event is
said to be now. -/
structure DispatchAgrees (now : Timeval) (q : SchedTimers) : Prop where
  first : q.due now <+: q.waiting
  late : ∀ t ∈ q.waiting, t.time.micros ≤ now.micros → t ∈ q.due now
  early : ∀ t ∈ q.due now, t.time.micros < now.micros + 1000
  next : q.due now ≠ [] ↔ q.timeToNextEvent now = 0

/-- The milliseconds that are left are negative as an `int` where they are negative. -/
def FitsInt (now : Timeval) (q : SchedTimers) : Prop :=
  ∀ t ∈ q.waiting, t.time.msUntil now ≤ 0 ↔ t.time.msLeft now ≤ 0

theorem mem_due {t : SchedCell} : t ∈ q.due now ↔ t ∈ q.waiting ∧ t.time.msUntil now ≤ 0 := by
  simp [SchedTimers.due]

theorem timeToNextEvent_eq_zero_iff :
    q.timeToNextEvent now = 0 ↔ q.timersCount ≠ 0 ∧ q.head.msUntil now ≤ 0 := by
  unfold SchedTimers.timeToNextEvent
  split_ifs with h1 h2
  · exact ⟨nofun, fun h => absurd h1 h.1⟩
  · exact ⟨fun _ => ⟨h1, Int.le_of_lt h2⟩, fun _ => rfl⟩
  · exact ⟨fun h => ⟨h1, h.le⟩, fun h => Int.le_antisymm h.2 (Int.not_lt.mp h2)⟩

/-- A dispatch that takes the first timers takes the head, if any. -/
theorem due_ne_nil_iff (h : q.due now <+: q.waiting) :
    q.due now ≠ [] ↔ q.timersCount ≠ 0 ∧ q.head.msUntil now ≤ 0 := by
  have hm : q.timersCount ≠ 0 → q.schedTimers 0 ∈ q.waiting := fun hc =>
    Cells.mem_content.mpr ⟨0, Nat.pos_of_ne_zero hc, rfl⟩
  constructor
  · intro hd
    obtain ⟨t, ts, ht⟩ := List.exists_cons_of_ne_nil hd
    obtain ⟨us, hu⟩ := h
    have hl := SchedTimers.length_waiting q
    have hx : t = q.schedTimers 0 := by
      have h0 : 0 < q.waiting.length := by rw [← hu, ht]; simp
      have hg : q.waiting[0] = q.schedTimers 0 := Cells.getElem_content h0
      rw [← hg]
      simp only [← hu, ht, List.cons_append, List.getElem_cons_zero]
    have hdue := (mem_due (q := q)).mp (ht ▸ List.mem_cons_self)
    refine ⟨fun hc => ?_, ?_⟩
    · rw [hc, List.length_eq_zero_iff] at hl
      rw [hl] at hdue
      exact absurd hdue.1 List.not_mem_nil
    · rw [SchedTimers.head, ← hx]
      exact hdue.2
  · rintro ⟨hc, hd⟩
    exact List.ne_nil_of_mem (mem_due.mpr ⟨hm hc, hd⟩)

theorem Schedule.Orderly.agrees_iff (h : s.Orderly) (hn : now.Proper) :
    DispatchAgrees now s.timers ↔ FitsInt now s.timers := by
  have hc : ∀ t ∈ s.timers.waiting, t.time.Carried := h.usec
  constructor
  · intro ha t ht
    obtain ⟨h1, h2, h3⟩ := Timeval.msLeft_close (hc t ht) hn
    -- only within a millisecond the dispatch is free, and there nothing is cut off
    have hs : ∀ x : Int, x = 0 ∨ x = 1 → x.bmod (2 ^ 32) = x := by
      rintro x (rfl | rfl) <;> decide
    constructor
    · intro hu
      have hd := ha.early t (mem_due.mpr ⟨ht, hu⟩)
      have hl := h3 hd
      by_cases he : t.time.msLeft now = 1
      · have hx := hs _ (.inr he)
        rw [Timeval.msUntil, hx] at hu
        exact hu
      · omega
    · intro hl
      by_cases hd : t.time.micros ≤ now.micros
      · exact (mem_due.mp (ha.late t ht hd)).2
      · have hz : t.time.msLeft now = 0 := by
          obtain ⟨a0, a1⟩ := hc t ht
          obtain ⟨n0, n1⟩ := hn
          have ht := Timeval.tdiv_cases (t.time.tvUsec - now.tvUsec)
          simp only [Timeval.micros, Timeval.msLeft] at hd hl ⊢
          omega
        rw [Timeval.msUntil, hs _ (.inl hz)]
        exact hl
  · intro hf
    have hfirst : s.timers.due now <+: s.timers.waiting := by
      refine filter_prefix (h.sorted.imp_of_mem fun {a b} ha hb hab hu => ?_)
      have hm := Timeval.msLeft_mono (hc a ha) (hc b hb) hn hab
      have hx := (hf b hb).mp (of_decide_eq_true hu)
      exact decide_eq_true ((hf a ha).mpr (hm.trans hx))
    refine ⟨hfirst, fun t ht hd => ?_, fun t ht => ?_, ?_⟩
    · exact mem_due.mpr ⟨ht, (hf t ht).mpr ((Timeval.msLeft_close (hc t ht) hn).1 hd)⟩
    · obtain ⟨hw, hu⟩ := mem_due.mp ht
      exact (Timeval.msLeft_close (hc t hw) hn).2.1 ((hf t hw).mp hu)
    · rw [due_ne_nil_iff hfirst, timeToNextEvent_eq_zero_iff]

/-- The dispatch and the next event agree on the timers of a channel, whatever was done to
them, as long as the distances keep their signs in an `int`. -/
theorem dispatch_agrees_iff (ops : List SchedOp) (hc : ∀ op ∈ ops, ∀ n ∈ op.clock?, n.Proper)
    (hn : now.Proper) :
    DispatchAgrees now (Schedule.new.applyAll ops).timers ↔ FitsInt now (Schedule.new.applyAll ops).timers :=
  (Schedule.applyAll_orderly ops hc Schedule.new_orderly).agrees_iff hn

/-- So for twenty-four days before and after. -/
theorem fitsInt_of_near (h : ∀ t ∈ q.waiting, -2 ^ 31 ≤ t.time.msLeft now ∧ t.time.msLeft now < 2 ^ 31) :
    FitsInt now q := by
  intro t ht
  obtain ⟨h1, h2⟩ := h t ht
  rw [Timeval.msUntil, Int.bmod_eq_of_le (by omega) (by omega)]

theorem dispatch_agrees_carry :
    let q := (Schedule.new.applyAll [.arm .r2Seize (some ⟨7, 1000⟩) 999 .seizeTimeoutExpired]).timers
    DispatchAgrees ⟨7, 999999⟩ q ↔ FitsInt ⟨7, 999999⟩ q := by
  refine dispatch_agrees_iff _ (fun op ho n hn => ?_) ⟨by decide, by decide⟩
  obtain rfl := List.mem_singleton.mp ho
  obtain rfl := Option.some.inj hn
  exact ⟨by decide, by decide⟩

/-- A timer that is twenty-five days late is not dispatched. -/
theorem dispatch_misses_late : ¬ ∀ (ops : List SchedOp) (now : Timeval),
    (∀ op ∈ ops, ∀ n ∈ op.clock?, n.Proper) → now.Proper →
      DispatchAgrees now (Schedule.new.applyAll ops).timers := by
  intro h
  have ha := h [.arm .r2Seize (some ⟨0, 0⟩) 0 .seizeTimeoutExpired] ⟨25 * 86400, 0⟩ (fun op ho n hn => by
    obtain rfl := List.mem_singleton.mp ho
    obtain rfl := Option.some.inj hn
    exact ⟨by decide, by decide⟩) ⟨by decide, by decide⟩
  have hd := ha.late ⟨⟨0, 0⟩, some .seizeTimeoutExpired, 2⟩ (by decide) (by decide)
  exact absurd hd (by decide)

end Dispatch

namespace SchedTimers

variable {now : Timeval} {q r w : SchedTimers} {chans as : List SchedTimers}

/-- No entry of these is earlier. -/
def Least (as : List SchedTimers) (q : SchedTimers) : Prop := q ∈ as ∧ ∀ r ∈ as, ¬ r.head.before q.head

/-- The channels with timers. -/
def busy (chans : List SchedTimers) : List SchedTimers := chans.filter fun q => q.timersCount ≠ 0

/-- What the context is to report: -1 without timers, and else how far the earliest is. -/
structure ReportsEarliest (now : Timeval) (chans : List SchedTimers) (ms : Int) : Prop where
  none : ms = -1 ↔ ∀ q ∈ chans, q.timersCount = 0
  earliest : ∀ q, Least (busy chans) q → ms = max 0 (q.head.msUntil now)

/-- The channels right behind one with timers. -/
def behind : List SchedTimers → List SchedTimers
  | q :: r :: chans => (if q.timersCount = 0 then [] else [r]) ++ behind (r :: chans)
  | _ => []

/-- The channels whose entries the walk compares: the first with timers, and whatever
stands right behind one. -/
def compared (chans : List SchedTimers) : List SchedTimers :=
  (chans.find? fun q => q.timersCount ≠ 0).toList ++ behind chans

/-- The last channel has timers. Of the entries that are compared one is as far as the earliest
timer, and none is before it. -/
structure WalkMeets (now : Timeval) (chans : List SchedTimers) : Prop where
  last : ∃ q ∈ chans.getLast?, q.timersCount ≠ 0
  near : ∀ q, Least (busy chans) q → ∃ r ∈ compared chans,
    max 0 (r.head.msUntil now) = max 0 (q.head.msUntil now) ∧
      ∀ w ∈ compared chans, ¬ w.head.before r.head

def sooner (w r : SchedTimers) : SchedTimers := if r.head.before w.head then r else w

/-- The winner of a contest is the least of those that took part. -/
theorem least_foldl (w : SchedTimers) (as : List SchedTimers) : Least (w :: as) (as.foldl sooner w) := by
  induction as generalizing w with
  | nil =>
    refine ⟨List.mem_singleton.mpr rfl, fun r hr => ?_⟩
    obtain rfl := List.mem_singleton.mp hr
    exact fun h => Timeval.before_asymm h h
  | cons r as ih =>
    obtain ⟨hm, hl⟩ := ih (sooner w r)
    rw [List.foldl_cons]
    generalize as.foldl sooner (sooner w r) = v at hm hl
    have hs : ¬ w.head.before (sooner w r).head ∧ ¬ r.head.before (sooner w r).head ∧
        (sooner w r = r ∨ sooner w r = w) := by
      unfold sooner
      split_ifs with h
      · exact ⟨Timeval.before_asymm h, fun h => Timeval.before_asymm h h, .inl rfl⟩
      · exact ⟨fun h => Timeval.before_asymm h h, h, .inr rfl⟩
    have hv := hl _ List.mem_cons_self
    have hx : ∀ u : SchedTimers, ¬ u.head.before (sooner w r).head → ¬ u.head.before v.head := fun u hu hb =>
      hu (Timeval.before_of_not_before hb hv)
    refine ⟨?_, fun u hu => ?_⟩
    · rcases List.mem_cons.mp hm with rfl | hm
      · rcases hs.2.2 with he | he
        · rw [he]
          exact List.mem_cons_of_mem _ List.mem_cons_self
        · rw [he]
          exact List.mem_cons_self
      · exact List.mem_cons_of_mem _ (List.mem_cons_of_mem _ hm)
    · rcases List.mem_cons.mp hu with rfl | hu
      · exact hx _ hs.1
      · rcases List.mem_cons.mp hu with rfl | hu
        · exact hx _ hs.2.1
        · exact hl u (List.mem_cons_of_mem _ hu)

theorem Least.head_eq (h : Least as q) (h' : Least as r) : q.head = r.head :=
  Timeval.eq_of_not_before (h'.2 q h.1) (h.2 r h'.1)

theorem max_msUntil (x : Int) : (if x < 0 then 0 else x) = max 0 x := by
  split_ifs with h
  · exact (max_eq_left (Int.le_of_lt h)).symm
  · exact (max_eq_right (Int.not_lt.mp h)).symm

/-- The walk, once it has a winner. -/
theorem contest_some (now : Timeval) (chans : List SchedTimers) (w : SchedTimers) :
    contest now chans (some w) =
      if ∃ q ∈ chans.getLast?, q.timersCount ≠ 0 then max 0 (((behind chans).foldl sooner w).head.msUntil now)
      else -1 := by
  induction chans generalizing w with
  | nil => simp [contest]
  | cons q chans ih =>
    cases chans with
    | nil =>
      by_cases hq : q.timersCount = 0
      · simp [contest, hq]
      · simp [contest, hq, behind, max_msUntil]
    | cons r chans =>
      rw [List.getLast?_cons_cons]
      by_cases hq : q.timersCount = 0
      · rw [contest, if_pos (by omega), ih w]
        simp only [behind, if_pos hq, List.nil_append]
      · rw [contest, if_neg (by omega)]
        simp only [Option.getD_some, behind, if_neg hq, List.singleton_append, List.foldl_cons]
        exact ih (sooner w r)

/-- Before that it passes over the channels without timers. -/
theorem contest_none (now : Timeval) (chans : List SchedTimers) :
    contest now chans none = match chans.find? fun q => q.timersCount ≠ 0 with
      | none => -1
      | some w => contest now chans (some w) := by
  induction chans with
  | nil => rfl
  | cons q chans ih =>
    by_cases hq : q.timersCount = 0
    · rw [contest, if_pos (by omega), ih, List.find?_cons_of_neg (by simpa using hq)]
      split
      · rfl
      · rw [contest, if_pos (by omega)]
    · have hq' : ¬ q.timersCount < 1 := by omega
      rw [List.find?_cons_of_pos (by simpa using hq)]
      unfold contest
      simp only [if_neg hq', Option.getD_none, Option.getD_some]

/-- The context reports its earliest timer where the walk meets it. -/
theorem reportsEarliest_iff (now : Timeval) (chans : List SchedTimers) :
    ReportsEarliest now chans (contextTimeToNextEvent (some now) chans) ↔
      (∀ q ∈ chans, q.timersCount = 0) ∨ WalkMeets now chans := by
  change ReportsEarliest now chans (contest now chans none) ↔ _
  rw [contest_none]
  cases hf : chans.find? (fun q => q.timersCount ≠ 0) with
  | none =>
    have hz : ∀ q ∈ chans, q.timersCount = 0 := by simpa using hf
    refine iff_of_true ⟨iff_of_true rfl hz, fun q hq => ?_⟩ (.inl hz)
    obtain ⟨hm, hn⟩ := List.mem_filter.mp hq.1
    exact absurd (hz q hm) (by simpa using hn)
  | some f =>
    have hn : ¬ ∀ q ∈ chans, q.timersCount = 0 := fun hz =>
      absurd (hz f (List.mem_of_find?_eq_some hf)) (by simpa using List.find?_some hf)
    have hb : ∃ q, Least (busy chans) q := by
      cases hx : busy chans with
      | nil =>
        refine absurd (List.filter_eq_nil_iff.mp hx f (List.mem_of_find?_eq_some hf)) ?_
        simpa using List.find?_some hf
      | cons w as => exact ⟨_, least_foldl w as⟩
    have hw : Least (compared chans) ((behind chans).foldl sooner f) := by
      have hl := least_foldl f (behind chans)
      rwa [compared, hf]
    dsimp only
    rw [contest_some]
    by_cases hl : ∃ q ∈ chans.getLast?, q.timersCount ≠ 0
    · rw [if_pos hl]
      constructor
      · intro h
        exact .inr ⟨hl, fun q hq => ⟨_, hw.1, h.earliest q hq, hw.2⟩⟩
      · intro h
        have h := h.resolve_left hn
        refine ⟨iff_of_false (fun he => ?_) hn, fun q hq => ?_⟩
        · exact absurd (le_max_left 0 (((behind chans).foldl sooner f).head.msUntil now)) (by rw [he]; decide)
        · obtain ⟨r, hr, he, hb⟩ := h.near q hq
          rw [hw.head_eq ⟨hr, hb⟩]
          exact he
    · rw [if_neg hl]
      exact iff_of_false (fun h => hn (h.none.mp rfl)) fun h => hl (h.resolve_left hn).last

/-- A timer waits on the first of two channels. -/
theorem waiting_timer_unreported : ¬ ∀ (now : Timeval) (chans : List SchedTimers),
    ReportsEarliest now chans (contextTimeToNextEvent (some now) chans) := by
  intro h
  have hr := h ⟨7, 0⟩ [(cancelAllTimers.addTimer (some ⟨7, 0⟩) 500 .seizeTimeoutExpired).1, cancelAllTimers]
  exact absurd (hr.none.mp rfl _ List.mem_cons_self) (by decide)

end SchedTimers

end OpenR2
