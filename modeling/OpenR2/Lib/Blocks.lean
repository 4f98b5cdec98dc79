import Mathlib
import OpenR2.Lib.Runs

namespace Blocks

variable {α σ o : Type*} (size : ℕ) (act : σ → List α → σ × List o)

/-- One more element. A block that is complete is acted on, and the next one starts. -/
def push (s : List α × σ) (x : α) : (List α × σ) × List o :=
  if s.1.length + 1 = size then (([], (act s.2 (s.1 ++ [x])).1), (act s.2 (s.1 ++ [x])).2)
  else ((s.1 ++ [x], s.2), [])

/-- A part of the stream, of which each round takes what is missing of a block. -/
def feed : ℕ → List α → List α × σ → (List α × σ) × List o
  | 0, _, s => (s, [])
  | fuel + 1, xs, s =>
    if xs = [] then (s, [])
    else if size - s.1.length ≤ xs.length then
      let r := act s.2 (s.1 ++ xs.take (size - s.1.length))
      let t := feed fuel (xs.drop (size - s.1.length)) ([], r.1)
      (t.1, r.2 ++ t.2)
    else ((s.1 ++ xs, s.2), [])

/-- A stream in parts of these sizes, as far as it goes. -/
def cut : List ℕ → List α → List (List α)
  | [], _ => []
  | n :: ns, xs => xs.take n :: cut ns (xs.drop n)

theorem flatten_cut (ns : List ℕ) (xs : List α) : (cut ns xs).flatten = xs.take ns.sum := by
  induction ns generalizing xs with
  | nil => rw [cut, List.flatten_nil, List.sum_nil, List.take_zero]
  | cons n ns ih => rw [cut, List.flatten_cons, ih, List.sum_cons, List.take_add]

/-- Where a part is empty that asks for something, the stream has come to its end. -/
theorem flatten_cut_of_nil {ns : List ℕ} {xs : List α} (hp : ∀ n ∈ ns, 0 < n) (h : [] ∈ cut ns xs) :
    (cut ns xs).flatten = xs := by
  induction ns generalizing xs with
  | nil => exact absurd h List.not_mem_nil
  | cons n ns ih =>
    obtain ⟨hn, hp⟩ := List.forall_mem_cons.mp hp
    rw [cut, List.flatten_cons]
    rcases List.mem_cons.mp h with hnil | htail
    · have hx : xs = [] := (List.take_eq_nil_iff.mp hnil.symm).resolve_left (by omega)
      rw [hx, List.take_nil, List.drop_nil, flatten_cut, List.take_nil]
      rfl
    · rw [ih hp htail, List.take_append_drop]

/-- What comes before that part is all of the stream. -/
theorem flatten_takeWhile_cut {ns : List ℕ} {xs : List α} (hp : ∀ n ∈ ns, 0 < n) (h : [] ∈ cut ns xs) :
    ((cut ns xs).takeWhile fun b => !b.isEmpty).flatten = xs := by
  induction ns generalizing xs with
  | nil => exact absurd h List.not_mem_nil
  | cons n ns ih =>
    obtain ⟨hn, hp⟩ := List.forall_mem_cons.mp hp
    rw [cut] at h ⊢
    by_cases hx : xs.take n = []
    · rw [List.takeWhile_cons_of_neg (by simp [hx])]
      exact ((List.take_eq_nil_iff.mp hx).resolve_left (by omega)).symm
    · rw [List.takeWhile_cons_of_pos (by simpa using hx), List.flatten_cons,
        ih hp ((List.mem_cons.mp h).resolve_left (Ne.symm hx)), List.take_append_drop]

section Feed

variable {xs b : List α} {s : σ}

/-- Elements that complete no block. -/
theorem exec_push_short (h : b.length + xs.length < size) :
    Runs.exec (push size act) xs (b, s) = ((b ++ xs, s), []) := by
  induction xs generalizing b with
  | nil => simp [Runs.exec]
  | cons x xs ih =>
    rw [List.length_cons] at h
    have hp : push size act (b, s) x = ((b ++ [x], s), []) := if_neg (by dsimp only; omega)
    rw [Runs.exec, hp, ih (by rw [List.length_append, List.length_singleton]; omega), List.append_assoc]
    rfl

/-- Elements that complete one block. -/
theorem exec_push_full (h : b.length + xs.length = size) (hx : xs ≠ []) :
    Runs.exec (push size act) xs (b, s) = (([], (act s (b ++ xs)).1), (act s (b ++ xs)).2) := by
  obtain ⟨ys, y, rfl⟩ := (List.eq_nil_or_concat xs).resolve_left hx
  rw [List.length_concat] at h
  have hshort := exec_push_short size act (s := s) (show b.length + ys.length < size by omega)
  rw [List.concat_eq_append, Runs.exec_append, hshort]
  have hp : push size act (b ++ ys, s) y =
      (([], (act s (b ++ ys ++ [y])).1), (act s (b ++ ys ++ [y])).2) :=
    if_pos (by dsimp only; rw [List.length_append]; omega)
  simp only [Runs.exec, hp, List.append_assoc, List.nil_append, List.append_nil]

/-- What is done with a part of the stream is what is done with its elements. -/
theorem feed_eq_exec {fuel : ℕ} (hf : xs.length ≤ fuel) (hb : b.length < size) :
    feed size act fuel xs (b, s) = Runs.exec (push size act) xs (b, s) := by
  induction fuel generalizing xs b s with
  | zero =>
    obtain rfl := List.length_eq_zero_iff.mp (Nat.le_zero.mp hf)
    rfl
  | succ fuel ih =>
    rw [feed]
    split_ifs with h0 hl
    · rw [h0, Runs.exec]
    · have hn : (xs.take (size - b.length)).length = size - b.length := List.length_take_of_le hl
      have hne : xs.take (size - b.length) ≠ [] := by
        rw [← List.length_pos_iff, hn]
        omega
      have hfull := @exec_push_full _ _ _ size act (xs.take (size - b.length)) b s (by omega) hne
      have hd : (xs.drop (size - b.length)).length ≤ fuel := by
        rw [List.length_drop]
        omega
      have h0 : ([] : List α).length < size := by
        rw [List.length_nil]
        omega
      conv_rhs => rw [← List.take_append_drop (size - b.length) xs]
      rw [Runs.exec_append, hfull]
      simp only [ih hd h0]
    · exact (exec_push_short size act (by omega)).symm

theorem exec_push_length (hb : b.length < size) :
    (Runs.exec (push size act) xs (b, s)).1.1.length < size := by
  have hstep : ∀ (t : List α × σ) (x : α), True → t.1.length < size → (push size act t x).1.1.length < size := by
    intro t x _ ht
    simp only [push]
    split_ifs
    · exact Nat.lt_of_le_of_lt (Nat.zero_le _) ht
    · simp only [List.length_append, List.length_singleton]
      omega
  exact Runs.exec_invariant hstep xs (b, s) (Runs.Along.always (fun _ _ => trivial) xs _) hb

/-- A stream is worked on block by block. -/
theorem exec_push_blocks {bs : List (List α)} {r : List α} (hx : b ++ xs = bs.flatten ++ r)
    (hb : b.length < size) (hbs : ∀ c ∈ bs, c.length = size) (hr : r.length < size) :
    Runs.exec (push size act) xs (b, s) = ((r, (Runs.exec act bs s).1), (Runs.exec act bs s).2) := by
  have hpre := @exec_push_short _ _ _ size act b [] s (by rw [List.length_nil]; omega)
  have hall : Runs.exec (push size act) (b ++ xs) ([], s) = Runs.exec (push size act) xs (b, s) := by
    rw [Runs.exec_append, hpre]
    rfl
  rw [← hall, hx]
  clear hall hpre hx
  induction bs generalizing s with
  | nil => exact exec_push_short size act (by simpa using hr)
  | cons c bs ih =>
    obtain ⟨hc, hbs⟩ := List.forall_mem_cons.mp hbs
    have hne : c ≠ [] := by
      rw [← List.length_pos_iff, hc]
      omega
    rw [List.flatten_cons, List.append_assoc, Runs.exec_append, exec_push_full size act (by simpa using hc) hne,
      List.nil_append, ih hbs]
    rfl

/-- Whole blocks of a signal, from one of its samples on. -/
def rows (w : ℕ → α) (a q : ℕ) : List (List α) :=
  (List.range q).map fun i => (List.range size).map fun j => w (a + i * size + j)

theorem length_of_mem_rows {w : ℕ → α} {a q : ℕ} {c : List α} (hc : c ∈ rows size w a q) : c.length = size := by
  obtain ⟨i, -, rfl⟩ := List.mem_map.mp hc
  simp

theorem range_rows (w : ℕ → α) (a q r : ℕ) :
    (List.range (q * size + r)).map (fun j => w (a + j)) =
      (rows size w a q).flatten ++ (List.range r).map fun j => w (a + q * size + j) := by
  induction q generalizing r with
  | zero => simp [rows]
  | succ q ih =>
    rw [Nat.succ_mul, Nat.add_assoc, ih, List.range_add, List.map_append, rows, rows, List.range_succ,
      List.map_append, List.flatten_append, List.append_assoc, List.map_map]
    simp [Function.comp_def, Nat.add_assoc]

/-- A signal that goes on for longer than the block that it finds. -/
theorem exec_push_signal {w : ℕ → α} {k n : ℕ} (hk : b.length + k = size) (h0 : 0 < k) (hn : k ≤ n) :
    Runs.exec (push size act) ((List.range n).map w) (b, s) =
      let bs := (b ++ (List.range k).map w) :: rows size w k ((n - k) / size)
      (((List.range ((n - k) % size)).map fun j => w (k + (n - k) / size * size + j), (Runs.exec act bs s).1),
        (Runs.exec act bs s).2) := by
  have hsize : 0 < size := by omega
  refine exec_push_blocks size act ?_ (by omega) ?_ (by simpa using Nat.mod_lt _ hsize)
  · have hsum : n = k + ((n - k) / size * size + (n - k) % size) := by
      rw [Nat.mul_comm, Nat.div_add_mod]
      omega
    conv_lhs => rw [hsum, List.range_add, List.map_append, List.map_map]
    rw [List.flatten_cons, List.append_assoc, List.append_assoc, ← range_rows]
    rfl
  · intro c hc
    rcases List.mem_cons.mp hc with rfl | hc
    · simpa using hk
    · exact length_of_mem_rows size hc

end Feed

end Blocks
