import Mathlib.Logic.Basic
import Mathlib.Tactic.TypeStar

/-- A filter against short values: the value it stands for, the one that is to follow it,
and since when that one has been seen. -/
structure Gate (α τ : Type*) where
  value : α
  candidate : α
  since : τ

namespace Gate

variable {α τ : Type*} [DecidableEq α] (enough : τ → τ → Prop) [DecidableRel enough]

/-- A sample comes in. One of the value itself is not looked at any further. -/
def hear (now : τ) (a : α) (g : Gate α τ) : Gate α τ :=
  if a = g.value then g
  else if a ≠ g.candidate then { g with candidate := a, since := now }
  else if enough now g.since then { g with value := a }
  else g

variable {enough} {g : Gate α τ} {a : α} {now : τ} {xs : List (τ × α)}

theorem hear_value (h : a = g.value) : g.hear enough now a = g := if_pos h

theorem hear_change (h : a ≠ g.value) (hc : a ≠ g.candidate) :
    g.hear enough now a = { g with candidate := a, since := now } := by
  rw [hear, if_neg h, if_pos hc]

theorem hear_pass (h : a ≠ g.value) (hc : a = g.candidate) (he : enough now g.since) :
    g.hear enough now a = { g with value := a } := by
  rw [hear, if_neg h, if_neg (not_not.mpr hc), if_pos he]

theorem hear_wait (h : a ≠ g.value) (hc : a = g.candidate) (he : ¬ enough now g.since) :
    g.hear enough now a = g := by
  rw [hear, if_neg h, if_neg (not_not.mpr hc), if_neg he]

omit [DecidableEq α] in
/-- A value that has been the only one since a sample at this time. -/
def Steady (a : α) (since : τ) (xs : List (τ × α)) : Prop :=
  ∃ ks ls, xs = ks ++ (since, a) :: ls ∧ ∀ x ∈ ls, x.2 = a

omit [DecidableEq α] in
theorem Steady.snoc (h : Steady a now xs) (later : τ) : Steady a now (xs ++ [(later, a)]) := by
  obtain ⟨ks, ls, rfl, hl⟩ := h
  refine ⟨ks, ls ++ [(later, a)], by simp, fun x hx => ?_⟩
  rcases List.mem_append.mp hx with hx | hx
  · exact hl x hx
  · rw [List.mem_singleton.mp hx]

omit [DecidableEq α] in
theorem Steady.last {since : τ} {b : α} (h : Steady a since (xs ++ [(now, b)])) : b = a := by
  obtain ⟨ks, ls, he, hl⟩ := h
  rcases List.eq_nil_or_concat ls with rfl | ⟨ms, x, rfl⟩
  · have hx := List.append_inj_right' he rfl
    simp only [List.cons.injEq, Prod.mk.injEq, and_true] at hx
    exact hx.2
  · rw [List.concat_eq_append, ← List.cons_append, ← List.append_assoc] at he
    have hx := List.append_inj_right' he rfl
    simp only [List.cons.injEq, and_true] at hx
    exact (congrArg Prod.snd hx).trans (hl x (by simp))

/-- What is to follow, if it is something else, has been there since the time noted. -/
def Anchored (xs : List (τ × α)) (g : Gate α τ) : Prop :=
  xs ≠ [] → g.candidate = g.value ∨ Steady g.candidate g.since xs

/-- A sample is misjudged: it is not compared though it breaks off what was to follow, or it
is taken to go on with what was noted before the first sample. -/
def Misjudges (xs : List (τ × α)) (g : Gate α τ) (a : α) : Prop :=
  a = g.value ∧ a ≠ g.candidate ∨ xs = [] ∧ a ≠ g.value ∧ a = g.candidate

instance [DecidableEq τ] : Decidable (g.Misjudges xs a) := by unfold Misjudges; exact inferInstance

omit [DecidableEq α] in
theorem Anchored.steady (h : g.Anchored xs) (hn : ¬ g.Misjudges xs a) (hv : a ≠ g.value)
    (hc : a = g.candidate) : Steady a g.since xs := by
  have hx : xs ≠ [] := fun hx => hn (.inr ⟨hx, hv, hc⟩)
  rcases h hx with h | h
  · exact absurd (hc.trans h) hv
  · exact hc ▸ h

theorem Anchored.hear (h : g.Anchored xs) (hn : ¬ g.Misjudges xs a) :
    (g.hear enough now a).Anchored (xs ++ [(now, a)]) := by
  intro _
  by_cases hv : a = g.value
  · rw [hear_value hv]
    refine .inl (not_not.mp fun hc => hn (.inl ⟨hv, fun ha => hc ?_⟩))
    exact ha.symm.trans hv
  by_cases hc : a = g.candidate
  · by_cases he : enough now g.since
    · rw [hear_pass hv hc he]
      exact .inl hc.symm
    · rw [hear_wait hv hc he]
      exact .inr (hc ▸ (h.steady hn hv hc).snoc now)
  · rw [hear_change hv hc]
    exact .inr ⟨xs, [], rfl, by simp⟩

end Gate
