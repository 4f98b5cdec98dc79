import Mathlib.Data.List.Nodup
import Mathlib.Logic.Function.Basic

namespace Chain

variable {α : Type*}

/-- The cells that a reader of a singly linked list meets, first to last. -/
inductive Path (next : α → Option α) : Option α → List α → Prop where
  | nil : Path next none []
  | cons (a : α) (as : List α) (tail : Path next (next a) as) : Path next (some a) (a :: as)

namespace Path

variable {next : α → Option α} {r : Option α} {as bs : List α} {a : α}

theorem unique (ha : Path next r as) (hb : Path next r bs) : as = bs := by
  induction ha generalizing bs with
  | nil =>
    cases hb
    rfl
  | cons a as _ ih =>
    cases hb with
    | cons _ bs tail => rw [ih tail]

/-- From each cell on, a path is a path. -/
theorem suffix (h : Path next r as) (ha : a ∈ as) :
    ∃ bs, Path next (some a) bs ∧ bs.length ≤ as.length := by
  induction h with
  | nil => exact absurd ha List.not_mem_nil
  | cons b bs tail ih =>
    rcases List.mem_cons.mp ha with rfl | ha
    · exact ⟨a :: bs, .cons a bs tail, Nat.le_refl _⟩
    · obtain ⟨cs, hc, hl⟩ := ih ha
      exact ⟨cs, hc, Nat.le_succ_of_le hl⟩

/-- A path that ends meets no cell twice. -/
theorem nodup (h : Path next r as) : as.Nodup := by
  induction h with
  | nil => exact List.nodup_nil
  | cons a as tail ih =>
    refine List.nodup_cons.mpr ⟨?_, ih⟩
    intro ha
    obtain ⟨bs, hb, hl⟩ := tail.suffix ha
    rw [hb.unique (.cons a as tail)] at hl
    exact absurd hl (Nat.not_succ_le_self _)

/-- A link that is not on the path does not matter. -/
theorem congr {next' : α → Option α} (h : Path next r as) (hn : ∀ a ∈ as, next' a = next a) :
    Path next' r as := by
  induction h with
  | nil => exact .nil
  | cons a as _ ih =>
    refine .cons a as ?_
    rw [hn a List.mem_cons_self]
    exact ih fun b hb => hn b (List.mem_cons_of_mem _ hb)

theorem update [DecidableEq α] (h : Path next r as) (ha : a ∉ as) (x : Option α) :
    Path (Function.update next a x) r as := by
  refine h.congr fun b hb => Function.update_of_ne ?_ _ _
  rintro rfl
  exact ha hb

theorem of_update [DecidableEq α] {x : Option α} (h : Path (Function.update next a x) r as)
    (ha : a ∉ as) : Path next r as := by
  have hu := h.update ha (next a)
  rwa [Function.update_idem, Function.update_eq_self] at hu

/-- Behind any cell of a path stands the rest of it. -/
theorem tail_of_append {l : List α} (h : Path next r (l ++ a :: as)) : Path next (next a) as := by
  induction l generalizing r with
  | nil =>
    cases h with
    | cons _ _ tail => exact tail
  | cons p l ih =>
    cases h with
    | cons _ _ tail => exact ih tail

/-- A cell is unlinked by its predecessor. -/
theorem unlink [DecidableEq α] {l : List α} {p : α} (h : Path next r (l ++ p :: a :: as)) :
    Path (Function.update next p (next a)) r (l ++ p :: as) := by
  have hd := h.nodup
  induction l generalizing r with
  | nil =>
    have hn : p ∉ as := fun hp => (List.nodup_cons.mp hd).1 (List.mem_cons_of_mem a hp)
    have ht : Path next (next a) as := tail_of_append (l := [p]) h
    cases h with
    | cons _ _ _ =>
      refine .cons p as ?_
      rw [Function.update_self]
      exact ht.update hn _
  | cons q l ih =>
    obtain ⟨hq, hd⟩ := List.nodup_cons.mp hd
    cases h with
    | cons _ _ tail =>
      refine .cons q _ ?_
      rw [Function.update_of_ne fun he => hq (by simp [he])]
      exact ih tail hd

end Path

end Chain
