import Mathlib

namespace TopTwo

variable {ι E : Type*} [LinearOrder E] (e : ι → E)

/-- One more candidate for the two highest. -/
def step (b : ι × ι) (i : ι) : ι × ι :=
  if e i ≥ e b.1 then (i, b.1) else if e i ≥ e b.2 then (b.1, i) else b

/-- The highest of those seen, and the highest of the others. -/
structure Of (seen : List ι) (b : ι × ι) : Prop where
  first : b.1 ∈ seen
  second : b.2 ∈ seen
  distinct : b.1 ≠ b.2
  order : e b.2 ≤ e b.1
  rest : ∀ i ∈ seen, i ≠ b.1 → e i ≤ e b.2

variable {e} {seen : List ι} {b : ι × ι}

theorem Of.step (h : Of e seen b) {i : ι} (hi : i ∉ seen) : Of e (i :: seen) (step e b i) := by
  obtain ⟨h1, h2, hd, ho, hr⟩ := h
  have hi1 : i ≠ b.1 := fun hx => hi (hx ▸ h1)
  rw [TopTwo.step]
  split_ifs with hb hs
  · refine ⟨List.mem_cons_self, List.mem_cons_of_mem i h1, hi1, hb, fun j hj hji => ?_⟩
    have hjs : j ∈ seen := (List.mem_cons.mp hj).resolve_left hji
    by_cases hjb : j = b.1
    · exact hjb ▸ le_refl _
    · exact le_trans (hr j hjs hjb) ho
  · refine ⟨List.mem_cons_of_mem i h1, List.mem_cons_self, hi1.symm, le_of_not_ge hb, fun j hj hjb => ?_⟩
    rcases List.mem_cons.mp hj with rfl | hjs
    · exact le_refl _
    · exact le_trans (hr j hjs hjb) hs
  · refine ⟨List.mem_cons_of_mem i h1, List.mem_cons_of_mem i h2, hd, ho, fun j hj hjb => ?_⟩
    rcases List.mem_cons.mp hj with rfl | hjs
    · exact le_of_not_ge hs
    · exact hr j hjs hjb

theorem Of.foldl (h : Of e seen b) {is : List ι} (hn : (is ++ seen).Nodup) :
    Of e (is.reverse ++ seen) (is.foldl (TopTwo.step e) b) := by
  induction is generalizing seen b with
  | nil => exact h
  | cons i is ih =>
    rw [List.cons_append, List.nodup_cons] at hn
    have hi : i ∉ seen := fun hx => hn.1 (List.mem_append_right is hx)
    have hmid : (is ++ i :: seen).Nodup := by
      rw [List.nodup_middle, List.nodup_cons]
      exact hn
    have hf := ih (h.step hi) hmid
    rwa [List.reverse_cons, List.append_assoc]

/-- Two that are higher than all others are the two highest. -/
theorem Of.eq_or_swap (h : Of e seen b) {i j : ι} (hi : i ∈ seen) (hj : j ∈ seen) (hij : i ≠ j)
    (hn : ∀ k ∈ seen, k ≠ i → k ≠ j → e k < e i ∧ e k < e j) : b = (i, j) ∨ b = (j, i) := by
  obtain ⟨h1, h2, hd, ho, hr⟩ := h
  have htop : ∀ k ∈ seen, e k ≤ e b.1 := by
    intro k hk
    by_cases hk1 : k = b.1
    · exact hk1 ▸ le_refl _
    · exact le_trans (hr k hk hk1) ho
  have hone : b.1 = i ∨ b.1 = j := by
    by_contra hx
    obtain ⟨hxi, hxj⟩ := not_or.mp hx
    exact absurd (htop i hi) (not_le_of_gt (hn b.1 h1 hxi hxj).1)
  have htwo : b.2 = i ∨ b.2 = j := by
    by_contra hx
    obtain ⟨hxi, hxj⟩ := not_or.mp hx
    have hlt := hn b.2 h2 hxi hxj
    rcases hone with h | h
    · exact absurd (hr j hj fun hj1 => hij (h.symm.trans hj1.symm)) (not_le_of_gt hlt.2)
    · exact absurd (hr i hi fun hi1 => hij (hi1.trans h)) (not_le_of_gt hlt.1)
  rcases hone with h | h <;> rcases htwo with h' | h'
  · exact absurd (h.trans h'.symm) hd
  · exact .inl (Prod.ext h h')
  · exact .inr (Prod.ext h h')
  · exact absurd (h.trans h'.symm) hd

end TopTwo
