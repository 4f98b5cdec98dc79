import Mathlib.Algebra.Order.Group.Nat
import Mathlib.Data.List.Basic
import Mathlib.Tactic.SplitIfs

namespace Ring

variable {α : Type*}

/-- Cells in a row. -/
def fetch (cells : ℕ → α) (off n : ℕ) : List α := (List.range n).map fun k => cells (off + k)

/-- The cells from here on take these values. -/
def copy (cells : ℕ → α) (off : ℕ) (as : List α) : ℕ → α := fun j =>
  if off ≤ j then as.getD (j - off) (cells j) else cells j

/-- Cells of a ring, which goes on at its start. -/
def span (size : ℕ) (cells : ℕ → α) (p n : ℕ) : List α := (List.range n).map fun k => cells ((p + k) % size)

/-- The values go to the cells from here on, and on at the start of the ring. -/
def fill (size : ℕ) (cells : ℕ → α) (p : ℕ) (as : List α) : ℕ → α :=
  copy (copy cells p (as.take (size - p))) 0 (as.drop (size - p))

section Rows

variable {cells : ℕ → α} {off n : ℕ} {as : List α}

@[simp] theorem length_fetch : (fetch cells off n).length = n := by simp [fetch]

@[simp] theorem fetch_zero : fetch cells off 0 = [] := rfl

@[simp] theorem copy_nil : copy cells off [] = cells := by
  funext j
  simp [copy]

theorem copy_inside {k : ℕ} (hk : k < as.length) : copy cells off as (off + k) = as[k] := by
  simp [copy, hk]

theorem copy_outside {j : ℕ} (hj : j < off ∨ off + as.length ≤ j) : copy cells off as j = cells j := by
  rw [copy]
  split_ifs with h
  · have hl : as.length ≤ j - off := by omega
    rw [List.getD_eq_getElem?_getD, List.getElem?_eq_none hl, Option.getD_none]
  · rfl

/-- Values that are put one after the other. -/
theorem copy_append (bs : List α) :
    copy (copy cells off as) (off + as.length) bs = copy cells off (as ++ bs) := by
  funext j
  by_cases h : off + as.length ≤ j
  · have hj : as.length ≤ j - off := by omega
    rw [copy, if_pos h, copy_outside (.inr h), copy, if_pos (by omega)]
    simp only [List.getD_eq_getElem?_getD, List.getElem?_append_right hj, Nat.sub_add_eq]
  · rw [copy_outside (.inl (by omega))]
    by_cases ho : off ≤ j
    · have hj : j - off < as.length := by omega
      rw [copy, if_pos ho, copy, if_pos ho]
      simp only [List.getD_eq_getElem?_getD, List.getElem?_append_left hj]
    · rw [copy_outside (.inl (by omega)), copy_outside (.inl (by omega))]

end Rows

section Rings

variable {size p n m : ℕ} {cells : ℕ → α} {as : List α}

@[simp] theorem length_span : (span size cells p n).length = n := by simp [span]

@[simp] theorem span_zero : span size cells p 0 = [] := rfl

theorem span_congr {cells' : ℕ → α} {q : ℕ}
    (h : ∀ k < n, cells ((p + k) % size) = cells' ((q + k) % size)) :
    span size cells p n = span size cells' q n :=
  List.map_congr_left fun k hk => h k (List.mem_range.mp hk)

theorem span_add : span size cells p (m + n) = span size cells p m ++ span size cells (p + m) n := by
  simp only [span, List.range_add, List.map_append, List.map_map]
  congr 1
  refine List.map_congr_left fun k _ => ?_
  simp only [Function.comp_apply, Nat.add_assoc]

theorem take_span (h : m ≤ n) : (span size cells p n).take m = span size cells p m := by
  obtain ⟨k, rfl⟩ := Nat.exists_eq_add_of_le h
  rw [span_add, List.take_left' length_span]

theorem drop_span (h : m ≤ n) : (span size cells p n).drop m = span size cells (p + m) (n - m) := by
  obtain ⟨k, rfl⟩ := Nat.exists_eq_add_of_le h
  rw [span_add, List.drop_left' length_span, Nat.add_sub_cancel_left]

/-- Places that are the same in the ring. -/
theorem span_modEq {q : ℕ} (h : p % size = q % size) : span size cells p n = span size cells q n := by
  refine span_congr fun k _ => ?_
  rw [Nat.add_mod, h, ← Nat.add_mod]

/-- Where the ring does not close, its cells are in a row. -/
theorem span_row (h : p + n ≤ size) : span size cells p n = fetch cells p n := by
  refine List.map_congr_left fun k hk => ?_
  have hk := List.mem_range.mp hk
  rw [Nat.mod_eq_of_lt (by omega)]

/-- Where it does, they are in two rows. -/
theorem span_rows (hp : p ≤ size) (h : size ≤ p + n) (hn : n ≤ size) :
    span size cells p n = fetch cells p (size - p) ++ fetch cells 0 (n - (size - p)) := by
  have hs : n = (size - p) + (n - (size - p)) := by omega
  have hq : (p + (size - p)) % size = 0 % size := by rw [Nat.add_sub_cancel' hp, Nat.mod_self, Nat.zero_mod]
  conv_lhs => rw [hs]
  rw [span_add, span_row (by omega), span_modEq hq, span_row (by omega)]

theorem fill_row (h : p + as.length ≤ size) : fill size cells p as = copy cells p as := by
  rw [fill, List.take_of_length_le (by omega), List.drop_of_length_le (by omega), copy_nil]

/-- What is in the cells of the ring after values were put there. -/
theorem fill_apply (hp : p ≤ size) (ha : as.length ≤ size) {k : ℕ} (hk : k < size) :
    fill size cells p as ((p + k) % size) =
      if h : k < as.length then as[k] else cells ((p + k) % size) := by
  by_cases hw : p + k < size
  · -- before the end of the row
    rw [Nat.mod_eq_of_lt hw, fill, copy_outside (by simp only [List.length_drop]; omega)]
    split_ifs with h
    · have hl : k < (as.take (size - p)).length := by
        simp only [List.length_take]
        omega
      rw [copy_inside hl, List.getElem_take]
    · exact copy_outside (by simp only [List.length_take]; omega)
  · -- at the start again
    have hm : (p + k) % size = p + k - size := by
      rw [Nat.mod_eq_sub_mod (by omega), Nat.mod_eq_of_lt (by omega)]
    rw [hm, fill]
    split_ifs with h
    · have hl : p + k - size < (as.drop (size - p)).length := by
        simp only [List.length_drop]
        omega
      have hx : size - p + (p + k - size) = k := by omega
      have hc := @copy_inside _ (copy cells p (as.take (size - p))) 0 _ _ hl
      rw [Nat.zero_add] at hc
      rw [hc, List.getElem_drop]
      simp only [hx]
    · rw [copy_outside (by simp only [List.length_drop]; omega),
        copy_outside (by simp only [List.length_take]; omega)]

/-- What follows a part of the ring becomes part of it, as long as there is room. -/
theorem span_fill {q : ℕ} (hp : p ≤ size) (hq : p % size = (q + n) % size) (hn : n + as.length ≤ size) :
    span size (fill size cells p as) q (n + as.length) = span size cells q n ++ as := by
  rw [span_add]
  congr 1
  · -- a cell of the part lies behind what is written
    refine span_congr fun k hk => ?_
    have hx : (q + k) % size = (p + (size - n + k)) % size := by
      have he : q + n + (size - n + k) = q + k + size := by omega
      rw [Nat.add_mod p, hq, ← Nat.add_mod, he, Nat.add_mod_right]
    rw [hx, fill_apply hp (by omega) (by omega), dif_neg (by omega)]
  · rw [span_modEq hq.symm]
    refine List.ext_getElem length_span fun k hk hk' => ?_
    simp only [span, List.getElem_map, List.getElem_range]
    rw [fill_apply hp (by omega) (by omega), dif_pos hk']

end Rings

end Ring
