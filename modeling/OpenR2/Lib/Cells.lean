import Mathlib.Data.List.Infix
import Mathlib.Logic.Function.Basic

namespace Cells

variable {α : Type*}

/-- The first cells of an array. -/
def content (a : Nat → α) (n : Nat) : List α := (List.range n).map a

/-- `memmove` of `n` cells within an array. -/
def move (dst src n : Nat) (a : Nat → α) : Nat → α :=
  fun i => if dst ≤ i ∧ i < dst + n then a (src + (i - dst)) else a i

variable {a b : Nat → α} {n i : Nat} {x : α}

@[simp] theorem length_content (a : Nat → α) (n : Nat) : (content a n).length = n := by
  simp [content]

@[simp] theorem getElem_content (h : i < (content a n).length) : (content a n)[i] = a i := by
  simp [content]

theorem mem_content : x ∈ content a n ↔ ∃ j < n, a j = x := by simp [content]

@[simp] theorem content_zero (a : Nat → α) : content a 0 = [] := rfl

theorem content_succ (a : Nat → α) (n : Nat) : content a (n + 1) = content a n ++ [a n] := by
  simp [content, List.range_succ]

theorem content_congr (h : ∀ j < n, a j = b j) : content a n = content b n :=
  List.map_congr_left fun j hj => h j (List.mem_range.mp hj)

/-- A cell behind the last one. -/
theorem content_push (a : Nat → α) (n : Nat) (x : α) :
    content (Function.update a n x) (n + 1) = content a n ++ [x] := by
  rw [content_succ, Function.update_self]
  congr 1
  exact content_congr fun j hj => Function.update_of_ne hj.ne _ _

/-- The cells from `i` on are moved up, and one is written in the gap. -/
theorem content_insert (hi : i ≤ n) (x : α) :
    content (Function.update (move (i + 1) i (n - i) a) i x) (n + 1) =
      (content a n).take i ++ x :: (content a n).drop i := by
  have hl : ((content a n).take i).length = i := by simp [hi]
  refine List.ext_getElem (by simp; omega) fun j hj hk => ?_
  rw [length_content] at hj
  rw [getElem_content, List.getElem_append]
  split_ifs with h
  · rw [hl] at h
    rw [Function.update_of_ne h.ne, List.getElem_take, getElem_content, move, if_neg (by omega)]
  · rw [hl] at h
    rcases Nat.eq_or_lt_of_le (Nat.le_of_not_lt h) with rfl | hlt
    · simp [hl]
    · obtain ⟨k, rfl⟩ : ∃ k, j = i + 1 + k := ⟨j - (i + 1), by omega⟩
      have hs : i + 1 + k - ((content a n).take i).length = k + 1 := by omega
      rw [Function.update_of_ne (by omega), move, if_pos (by omega)]
      simp only [hs, List.getElem_cons_succ, List.getElem_drop, getElem_content]
      congr 1
      omega

/-- A cell is cleared, and those behind it are moved down. -/
theorem content_remove (hi : i < n) (x : α) :
    content (move i (i + 1) (n - (i + 1)) (Function.update a i x)) (n - 1) =
      (content a n).eraseIdx i := by
  have hl : ((content a n).eraseIdx i).length = n - 1 := by
    rw [List.length_eraseIdx_of_lt (by simpa using hi), length_content]
  refine List.ext_getElem (by rw [hl, length_content]) fun j hj hk => ?_
  rw [length_content] at hj
  rw [getElem_content, List.getElem_eraseIdx]
  split_ifs with h
  · rw [getElem_content, move, if_neg (by omega), Function.update_of_ne h.ne]
  · rw [getElem_content, move, if_pos (by omega), Function.update_of_ne (by omega)]
    congr 1
    omega

/-- Clearing the last cell drops it. -/
theorem content_pop (hi : i + 1 = n) (x : α) :
    content (Function.update a i x) (n - 1) = (content a n).eraseIdx i := by
  have hm : move i (i + 1) (n - (i + 1)) (Function.update a i x) = Function.update a i x := by
    funext j
    rw [move, if_neg (by omega)]
  rw [← content_remove (by omega : i < n) x, hm]

end Cells
