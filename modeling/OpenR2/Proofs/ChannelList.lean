import OpenR2.Registry

namespace OpenR2

open Chain

/-- Creation and not deletion. -/
def ChanOp.Creates : ChanOp → Prop
  | .new .. | .newFromFd .. => True
  | .delete .. => False

namespace Registry

/-- The list holds the channels that exist, each of them once. -/
def Exact (s : Registry) : Prop :=
  s.live.Nodup ∧ ∃ as, Path s.next s.chanlist as ∧ as.Nodup ∧ ∀ a, a ∈ as ↔ a ∈ s.live

/-- However far a reader of the list gets, it meets a channel that is no more. -/
def Dangling (s : Registry) : Prop :=
  ∀ as, Path s.next s.chanlist as → ∃ a ∈ as, a ∉ s.live

section Steps

variable {s : Registry} {a : Addr} {freed : Option Addr}

theorem exact_not_dangling (h : s.Exact) : ¬ s.Dangling := by
  obtain ⟨-, as, hp, -, hm⟩ := h
  intro hd
  obtain ⟨a, ha, hn⟩ := hd as hp
  exact hn ((hm a).mp ha)

/-- Linking a channel. -/
theorem exact_link (h : s.Exact) (ha : a ∉ s.live) : ((s.calloc a).addChannel a).Exact := by
  obtain ⟨hl, as, hp, hd, hm⟩ := h
  have hn : a ∉ as := fun h => ha ((hm a).mp h)
  refine ⟨List.nodup_cons.mpr ⟨ha, hl⟩, a :: as, .cons a as ?_, List.nodup_cons.mpr ⟨hn, hd⟩, ?_⟩
  · simpa [addChannel, calloc] using hp.update hn s.chanlist
  · intro b
    simp [addChannel, calloc, hm b]

/-- Memory that is freed before it was linked. -/
theorem exact_abort (h : s.Exact) (ha : a ∉ s.live) : ((s.calloc a).chanDelete a freed).Exact := by
  obtain ⟨hl, as, hp, hd, hm⟩ := h
  have hn : a ∉ as := fun h => ha ((hm a).mp h)
  have hlive : ((s.calloc a).chanDelete a freed).live = s.live := List.erase_cons_head ..
  refine ⟨hlive ▸ hl, as, ?_, hd, fun b => hlive ▸ hm b⟩
  exact (hp.update hn none).update hn freed

theorem dangling_link (h : s.Dangling) : ((s.calloc a).addChannel a).Dangling := by
  intro as hp
  have hc : ((s.calloc a).addChannel a).next a = s.chanlist := Function.update_self ..
  cases hp with
  | cons _ as tail =>
    have hn : a ∉ as := (List.nodup_cons.mp (Path.cons a as tail).nodup).1
    rw [hc] at tail
    obtain ⟨b, hb, hd⟩ := h as ((tail.of_update hn).of_update hn)
    refine ⟨b, List.mem_cons_of_mem _ hb, ?_⟩
    have hba : b ≠ a := by
      rintro rfl
      exact hn hb
    simp [addChannel, calloc, hba, hd]

theorem dangling_abort (h : s.Dangling) (ha : a ∉ s.live) :
    ((s.calloc a).chanDelete a freed).Dangling := by
  intro as hp
  have hlive : ((s.calloc a).chanDelete a freed).live = s.live := List.erase_cons_head ..
  rw [hlive]
  by_cases hm : a ∈ as
  · exact ⟨a, hm, ha⟩
  · exact h as ((hp.of_update hm).of_update hm)

/-- The deletion of a channel leaves it in the list. -/
theorem dangling_delete (h : s.Exact) (ha : a ∈ s.live) : (s.chanDelete a freed).Dangling := by
  obtain ⟨hl, bs, hb, -, hm⟩ := h
  intro as hp
  by_cases hma : a ∈ as
  · exact ⟨a, hma, fun h => absurd rfl ((List.Nodup.mem_erase_iff hl).mp h).1⟩
  · have has : as = bs := (hp.of_update hma).unique hb
    exact absurd ((hm a).mpr ha) (has ▸ hma)

theorem dangling_delete_again (h : s.Dangling) (hl : s.live.Nodup) :
    (s.chanDelete a freed).Dangling := by
  intro as hp
  by_cases hma : a ∈ as
  · exact ⟨a, hma, fun h => absurd rfl ((List.Nodup.mem_erase_iff hl).mp h).1⟩
  · obtain ⟨b, hb, hn⟩ := h as (hp.of_update hma)
    exact ⟨b, hb, fun h => hn (List.mem_of_mem_erase h)⟩

/-- What a creation preserves. -/
theorem newChan_preserves {p : Registry → Prop} (openchan : Bool) (w : Alloc)
    (hl : ∀ a, w.cell = some a → p ((s.calloc a).addChannel a))
    (ha : ∀ a, w.cell = some a → p ((s.calloc a).chanDelete a w.freed)) (hs : p s) :
    p (s.chanNew' openchan w).1 := by
  unfold chanNew'
  cases hc : w.cell with
  | none => exact hs
  | some a =>
    dsimp only
    split_ifs
    · exact ha a hc
    · exact ha a hc
    · exact hl a hc

end Steps

section Runs

variable {s : Registry}

theorem apply_exact {op : ChanOp} (h : s.Exact) (ha : s.Allowed op) (hc : op.Creates) :
    (s.apply op).1.Exact := by
  have hnew : ∀ openchan (w : Alloc), (∀ a, w.cell = some a → a ∉ s.live) →
      (s.chanNew' openchan w).1.Exact := fun openchan w hw =>
    newChan_preserves openchan w (fun a hc => exact_link h (hw a hc))
      (fun a hc => exact_abort h (hw a hc)) h
  cases op with
  | new channo w =>
    simp only [apply, chanNew]
    split_ifs
    · exact h
    · exact hnew true w ha
  | newFromFd channo w =>
    simp only [apply, chanNewFromFd]
    split_ifs
    · exact h
    · exact hnew false w ha
  | delete a freed => exact hc.elim

/-- Nothing repairs the list. -/
theorem apply_dangling {op : ChanOp} (ha : s.Allowed op) (h : s.live.Nodup ∧ s.Dangling) :
    (s.apply op).1.live.Nodup ∧ (s.apply op).1.Dangling := by
  have hnew : ∀ openchan (w : Alloc), (∀ a, w.cell = some a → a ∉ s.live) →
      (s.chanNew' openchan w).1.live.Nodup ∧ (s.chanNew' openchan w).1.Dangling := by
    intro openchan w hw
    refine newChan_preserves (p := fun s => s.live.Nodup ∧ s.Dangling) openchan w ?_ ?_ h
    · intro a hc
      exact ⟨List.nodup_cons.mpr ⟨hw a hc, h.1⟩, dangling_link h.2⟩
    · intro a hc
      exact ⟨(List.nodup_cons.mpr ⟨hw a hc, h.1⟩).erase a, dangling_abort h.2 (hw a hc)⟩
  cases op with
  | new channo w =>
    simp only [apply, chanNew]
    split_ifs
    · exact h
    · exact hnew true w ha
  | newFromFd channo w =>
    simp only [apply, chanNewFromFd]
    split_ifs
    · exact h
    · exact hnew false w ha
  | delete a freed => exact ⟨h.1.erase a, dangling_delete_again h.2 h.1⟩

/-- The list is exact up to the first deletion, and never again. -/
theorem run_exact_iff (ops : List ChanOp) (h : s.Exact) (ha : Runs.Along apply Allowed ops s) :
    (Runs.exec apply ops s).1.Exact ↔ ∀ op ∈ ops, op.Creates := by
  induction ops generalizing s with
  | nil => simpa [Runs.exec] using h
  | cons op ops ih =>
    by_cases hc : op.Creates
    · simpa [Runs.exec, hc] using ih (apply_exact h ha.1 hc) ha.2
    · have hd : (s.apply op).1.live.Nodup ∧ (s.apply op).1.Dangling := by
        cases op with
        | delete a freed => exact ⟨h.1.erase a, dangling_delete h ha.1⟩
        | _ => exact absurd trivial hc
      have hr := Runs.exec_invariant (P := fun s : Registry => s.live.Nodup ∧ s.Dangling)
        (fun _ _ ha hs => apply_dangling ha hs) ops _ ha.2 hd
      refine iff_of_false (fun he => exact_not_dangling he hr.2) fun hall => ?_
      exact hc (hall op List.mem_cons_self)

theorem new_exact : new.Exact := ⟨List.nodup_nil, [], .nil, List.nodup_nil, fun _ => Iff.rfl⟩

/-- The list of a context is what its users take it for: it holds the channels that
exist, `openr2_context_delete` deletes each of them once, and
`openr2_context_get_time_to_next_event` looks at no other. -/
structure Sound (s : Registry) : Prop where
  exact : s.Exact
  deletes : ∀ freed, ∃ ds, contextDelete freed s.live.length s.chanlist s = some ds ∧ ds.Nodup ∧
    ∀ a, a ∈ ds ↔ a ∈ s.live
  looksAt : ∃ vs, timeToNextEvent s.live.length s.chanlist s = some vs ∧ ∀ a ∈ vs, a ∈ s.live

/-- The teardown reads each link before it frees it. -/
theorem contextDelete_path {r : Option Addr} {as : List Addr} (freed : Addr → Option Addr)
    (h : Path s.next r as) (n : Nat) (hn : as.length ≤ n) :
    contextDelete freed n r s = some as := by
  induction as generalizing n r s with
  | nil =>
    cases h
    simp [contextDelete]
  | cons a as ih =>
    have hd := h.nodup
    cases h with
    | cons _ _ tail =>
      obtain _ | n := n
      · exact absurd hn (Nat.not_succ_le_zero _)
      · have ht : Path (s.chanDelete a (freed a)).next (s.next a) as :=
          tail.update (List.nodup_cons.mp hd).1 _
        simp [contextDelete, ih ht n (Nat.le_of_succ_le_succ hn)]

theorem timeToNextEvent_path {r : Option Addr} {as : List Addr} (h : Path s.next r as) (n : Nat)
    (hn : as.length ≤ n) : timeToNextEvent n r s = some as := by
  induction h generalizing n with
  | nil => simp [timeToNextEvent]
  | cons a as _ ih =>
    obtain _ | n := n
    · exact absurd hn (Nat.not_succ_le_zero _)
    · simp [timeToNextEvent, ih n (Nat.le_of_succ_le_succ hn)]

theorem Exact.sound (h : s.Exact) : s.Sound := by
  obtain ⟨as, hp, hd, hm⟩ := h.2
  have hn : as.length ≤ s.live.length := hd.length_le_of_subset fun a ha => (hm a).mp ha
  exact ⟨h, fun freed => ⟨as, contextDelete_path freed hp _ hn, hd, hm⟩,
    ⟨as, timeToNextEvent_path hp _ hn, fun a ha => (hm a).mp ha⟩⟩

/-- The context knows its channels as long as none was deleted, and no longer. -/
theorem channels_known_iff (ops : List ChanOp) (ha : Runs.Along apply Allowed ops new) :
    (Runs.exec apply ops new).1.Sound ↔ ∀ op ∈ ops, op.Creates := by
  rw [← run_exact_iff ops new_exact ha]
  exact ⟨Sound.exact, Exact.sound⟩

/-- Two channels, the second of which could not be opened at first. -/
theorem channels_known_two :
    let ops := [ChanOp.new 1 ⟨some 7, true, true, none⟩, .new 2 ⟨some 8, false, true, some 7⟩,
      .newFromFd 2 ⟨some 8, false, false, none⟩]
    (Runs.exec apply ops new).1.Sound ↔ ∀ op ∈ ops, op.Creates := by
  intro ops
  refine channels_known_iff ops ⟨?_, ?_, ?_, trivial⟩
  all_goals
    rintro a ha
    obtain rfl := Option.some.inj ha
    decide

/-- A channel is created and deleted. -/
theorem deleted_channel_listed :
    ¬ ∀ ops : List ChanOp, Runs.Along apply Allowed ops new →
      (Runs.exec apply ops new).1.Sound := by
  intro h
  have hs := h [.new 1 ⟨some 7, true, true, none⟩, .delete 7 none]
    ⟨fun a _ => List.not_mem_nil, List.mem_singleton.mpr rfl, trivial⟩
  obtain ⟨as, hp, -, hm⟩ := hs.exact.2
  cases hp with
  | cons _ as _ => exact absurd ((hm 7).mp List.mem_cons_self) (by decide)

end Runs

section Removal

variable {s : Registry} {a : Addr} {as : List Addr}

/-- The walk of a removal, past the head. -/
theorem removeLoop_path {l bs : List Addr} {p : Addr} (h : Path s.next s.chanlist (l ++ p :: bs))
    (ha : a ∉ l ++ [p]) (n : Nat) (hn : bs.length ≤ n) :
    ∃ s', removeLoop a n (some p) (s.next p) s = some s' ∧
      Path s'.next s'.chanlist (l ++ p :: bs.erase a) := by
  induction bs generalizing l p n with
  | nil =>
    have ht := h.tail_of_append
    generalize s.next p = r at ht
    cases ht
    exact ⟨s, by simp [removeLoop], h⟩
  | cons b bs ih =>
    have ht := h.tail_of_append
    obtain _ | n := n
    · exact absurd hn (Nat.not_succ_le_zero _)
    · generalize hr : s.next p = r at ht
      cases ht
      by_cases hb : b = a
      · subst hb
        have hc : ¬ some b = s.chanlist := by
          intro hc
          rw [← hc] at h
          refine ha ?_
          cases l with
          | nil =>
            cases h
            exact List.mem_cons_self
          | cons q l =>
            cases h
            exact List.mem_cons_self
        refine ⟨{ s with next := Function.update s.next p (s.next b) }, ?_, ?_⟩
        · simp [removeLoop, hc]
        · rw [List.erase_cons_head]
          exact h.unlink
      · have hx : a ∉ (l ++ [p]) ++ [b] := by
          rw [List.mem_append, List.mem_singleton]
          exact fun hm => hm.elim ha fun he => hb he.symm
        have hp : Path s.next s.chanlist ((l ++ [p]) ++ b :: bs) := by simpa using h
        obtain ⟨s', hs, hp⟩ := ih hp hx n (Nat.le_of_succ_le_succ hn)
        refine ⟨s', ?_, ?_⟩
        · rw [removeLoop, if_neg hb]
          exact hs
        · rw [List.erase_cons_tail (by simpa using hb)]
          simpa using hp

/-- The removal of a channel erases it from the list, unless it is the first of several. -/
theorem removeChannel_erases_iff (h : Path s.next s.chanlist as) (a : Addr) (n : Nat) (hn : as.length ≤ n) :
    (∃ s', s.removeChannel n a = some s' ∧ Path s'.next s'.chanlist (as.erase a)) ↔
      (as.head? = some a → as = [a]) := by
  unfold removeChannel
  cases as with
  | nil =>
    have hr : s.chanlist = none := by
      generalize s.chanlist = r at h
      cases h
      rfl
    refine iff_of_true ⟨s, by rw [hr]; simp [removeLoop], h⟩ nofun
  | cons c cs =>
    have hr : s.chanlist = some c := by
      generalize s.chanlist = r at h
      cases h
      rfl
    obtain _ | n := n
    · exact absurd hn (Nat.not_succ_le_zero _)
    · by_cases hc : c = a
      · subst hc
        -- the head takes the whole list with it
        have he : removeLoop c (n + 1) none s.chanlist s = some { s with chanlist := none } := by
          rw [hr, removeLoop, if_pos rfl]
          simp [hr]
        rw [he, List.erase_cons_head]
        constructor
        · rintro ⟨s', hs, hp⟩ -
          obtain rfl := Option.some.inj hs
          rw [hp.unique .nil]
        · intro hx
          have hcs : cs = [] := (List.cons.inj (hx rfl)).2
          exact ⟨_, rfl, hcs ▸ .nil⟩
      · refine iff_of_true ?_ fun hx => absurd (Option.some.inj hx) hc
        obtain ⟨s', hs, hp⟩ := removeLoop_path (l := []) h (by simpa using Ne.symm hc) n
          (Nat.le_of_succ_le_succ hn)
        refine ⟨s', ?_, ?_⟩
        · rw [hr, removeLoop, if_neg hc]
          exact hs
        · rw [List.erase_cons_tail (by simpa using hc)]
          exact hp

/-- The channels 9, 8 and 7, of which the middle one is removed. -/
theorem removeChannel_erases_middle :
    let s := ((new.addChannel 7).addChannel 8).addChannel 9
    (∃ s', s.removeChannel 3 8 = some s' ∧ Path s'.next s'.chanlist [9, 7]) ↔
      (([9, 8, 7] : List Addr).head? = some 8 → ([9, 8, 7] : List Addr) = [8]) := by
  intro s
  have h : Path s.next s.chanlist [9, 8, 7] := .cons 9 _ (.cons 8 _ (.cons 7 _ .nil))
  exact removeChannel_erases_iff h 8 3 (Nat.le_refl 3)

/-- The channels 8 and 7, of which the first is removed. -/
theorem removed_head_empties : ¬ ∀ (s : Registry) (as : List Addr) (a : Addr),
    Path s.next s.chanlist as →
      ∃ s', s.removeChannel as.length a = some s' ∧ Path s'.next s'.chanlist (as.erase a) := by
  intro h
  have hp : Path ((new.addChannel 7).addChannel 8).next ((new.addChannel 7).addChannel 8).chanlist [8, 7] :=
    .cons 8 _ (.cons 7 _ .nil)
  obtain ⟨s', hs, hx⟩ := h _ _ 8 hp
  obtain rfl := Option.some.inj hs
  cases hx

end Removal

end Registry

end OpenR2
