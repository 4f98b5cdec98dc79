import Mathlib.Algebra.Order.Group.Nat
import Mathlib.Algebra.Order.Group.Unbundled.Int
import Mathlib.Tactic.SplitIfs
import OpenR2.Alaw

namespace OpenR2

/-- The middle of the step of the scale in which a magnitude lies. From 256 on a step is a sixteenth
of a power of two. -/
def middle (m : Nat) : Nat :=
  if m < 256 then m / 16 * 16 + 8 else m / 2 ^ (m.log2 - 4) * 2 ^ (m.log2 - 4) + 2 ^ (m.log2 - 5)

/-- A byte by its sign, segment and place in the segment. -/
def alawCode (positive : Bool) (seg place : Nat) : UInt8 :=
  UInt8.ofNat ((seg <<< 4) ||| place) ^^^ (if positive then alawAmiMask ||| 0x80 else alawAmiMask)

theorem alawToLinear_code : ∀ (positive : Bool) (seg : Fin 8) (place : Fin 16),
    alawToLinear (alawCode positive seg place) =
      (if positive then 1 else -1) * (if seg.val = 0 then place * 16 + 8 else (place + 16) * 2 ^ (seg.val + 3) +
        2 ^ (seg.val + 2) : Nat) := by
  decide +kernel

/-- The segment of a magnitude. -/
def segment (m : Nat) : Nat := (m ||| 0xFF).log2 - 7

theorem or_ne_zero (m : Nat) : m ||| 0xFF ≠ 0 := by
  have h : 0xFF ≤ m ||| 0xFF := Nat.right_le_or
  omega

theorem segment_low {m : Nat} (h : m < 256) : segment m = 0 := by
  have hlt : m ||| 0xFF < 2 ^ 8 := Nat.or_lt_two_pow h (by decide)
  have hlog := (Nat.log2_lt (or_ne_zero m)).mpr hlt
  rw [segment]
  omega

theorem segment_high {m : Nat} (h : 256 ≤ m) : 8 ≤ m.log2 ∧ segment m + 7 = m.log2 := by
  have hm : m ≠ 0 := by omega
  have h8 : 8 ≤ m.log2 := (Nat.le_log2 hm).mpr h
  have hlog : (m ||| 0xFF).log2 = m.log2 := by
    rw [Nat.log2_eq_iff (or_ne_zero m)]
    obtain ⟨h1, h2⟩ := (Nat.log2_eq_iff hm).mp rfl
    refine ⟨le_trans h1 Nat.left_le_or, Nat.or_lt_two_pow h2 (lt_of_lt_of_le (by decide : 0xFF < 2 ^ 8) ?_)⟩
    exact Nat.pow_le_pow_right (by decide) (by omega)
  rw [segment, hlog]
  omega

theorem segment_lt {m : Nat} (h : m < 2 ^ 15) : segment m < 8 := by
  have hlog := (Nat.log2_lt (or_ne_zero m)).mpr (Nat.or_lt_two_pow h (by decide : 0xFF < 2 ^ 15))
  rw [segment]
  omega

/-- The step of a segment in which a magnitude lies. -/
def place (m : Nat) : Nat := m / 2 ^ (if segment m = 0 then 4 else segment m + 3) % 16

/-- The magnitude of a sample, which is one less where it is negative. -/
def magnitude (x : Int) : Nat := if 0 ≤ x then x.toNat else (-x - 1).toNat

theorem linearToAlaw_code {x : Int} (h : magnitude x < 2 ^ 15) :
    linearToAlaw x = alawCode (decide (0 ≤ x)) (segment (magnitude x)) (place (magnitude x)) := by
  have hseg : ∀ m, m < 2 ^ 15 → topBit (m ||| 0xFF) - 7 = segment m := by
    intro m hm
    have h7 : 7 ≤ (m ||| 0xFF).log2 := (Nat.le_log2 (or_ne_zero m)).mpr (le_trans (by decide) Nat.right_le_or)
    rw [topBit, if_neg (or_ne_zero m), segment]
    omega
  have hplace : ∀ m, (m >>> (if (segment m : Int) ≠ 0 then segment m + 3 else 4)) &&& 0x0F = place m := by
    intro m
    have hmod : ∀ n, n &&& 0x0F = n % 16 := fun n => Nat.and_two_pow_sub_one_eq_mod n 4
    rw [hmod, Nat.shiftRight_eq_div_pow, place]
    by_cases h0 : segment m = 0
    · rw [if_neg (by simp [h0]), if_pos h0]
    · rw [if_pos (by simpa using h0), if_neg h0]
  by_cases hx : 0 ≤ x
  · have hm : magnitude x = x.toNat := if_pos hx
    rw [hm] at h ⊢
    have hlt := segment_lt h
    rw [linearToAlaw, if_pos hx, if_pos hx, hseg _ h, Int.toNat_natCast]
    dsimp only
    rw [hplace, if_neg (by omega), alawCode, decide_eq_true hx, if_pos rfl, if_pos hx]
  · have hm : magnitude x = (-x - 1).toNat := if_neg hx
    rw [hm] at h ⊢
    have hlt := segment_lt h
    rw [linearToAlaw, if_neg hx, if_neg hx, hseg _ h, Int.toNat_natCast]
    dsimp only
    rw [hplace, if_neg (by omega), alawCode, decide_eq_false hx, if_neg (by decide)]

/-- What comes back of a sample is the middle of its step. -/
theorem alaw_middle {x : Int} (h : magnitude x < 2 ^ 15) :
    alawToLinear (linearToAlaw x) = (if 0 ≤ x then 1 else -1) * (middle (magnitude x) : Int) := by
  have hlt := segment_lt h
  have hcode := alawToLinear_code (decide (0 ≤ x)) ⟨_, hlt⟩ ⟨place (magnitude x), Nat.mod_lt _ (by decide)⟩
  rw [linearToAlaw_code h]
  refine hcode.trans ?_
  have hmid : (if segment (magnitude x) = 0 then place (magnitude x) * 16 + 8
      else (place (magnitude x) + 16) * 2 ^ (segment (magnitude x) + 3) + 2 ^ (segment (magnitude x) + 2)) =
        middle (magnitude x) := by
    generalize magnitude x = m at h ⊢
    by_cases hm : m < 256
    · rw [if_pos (segment_low hm), middle, if_pos hm, place, if_pos (segment_low hm), Nat.mod_eq_of_lt (by omega)]
      rfl
    · obtain ⟨h8, hs⟩ := segment_high (not_lt.mp hm)
      have h0 : segment m ≠ 0 := by omega
      obtain ⟨h1, h2⟩ := (Nat.log2_eq_iff (by omega : m ≠ 0)).mp rfl
      have hq : m / 2 ^ (segment m + 3) % 16 + 16 = m / 2 ^ (segment m + 3) := by
        have hlo : 16 ≤ m / 2 ^ (segment m + 3) := by
          rw [Nat.le_div_iff_mul_le (Nat.two_pow_pos _)]
          have hpow : 2 ^ (segment m + 7) = 2 ^ (segment m + 3) * 2 ^ 4 := Nat.pow_add 2 (segment m + 3) 4
          rw [hs] at hpow
          omega
        have hhi : m / 2 ^ (segment m + 3) < 32 := by
          rw [Nat.div_lt_iff_lt_mul (Nat.two_pow_pos _)]
          have hpow : 2 ^ (segment m + 7 + 1) = 2 ^ (segment m + 3) * 2 ^ 5 := Nat.pow_add 2 (segment m + 3) 5
          rw [hs] at hpow
          omega
        omega
      rw [if_neg h0, middle, if_neg hm, place, if_neg h0, hq, ← hs]
      congr 1
  by_cases hx : 0 ≤ x
  · simp only [hx, decide_true, if_true] at hmid ⊢
    rw [hmid]
  · simp only [hx, decide_false, if_false] at hmid ⊢
    rw [hmid]
    rfl

/-- The step of a magnitude from 256 on, and its sixteen steps up to the next power of two. -/
theorem step_of {m : Nat} (h : 256 ≤ m) : ∃ w, middle m = m / (2 * w) * (2 * w) + w ∧
    2 ^ m.log2 = 32 * w ∧ 32 * w ≤ m ∧ m < 64 * w := by
  have hm : m ≠ 0 := by omega
  have h8 : 8 ≤ m.log2 := (Nat.le_log2 hm).mpr h
  obtain ⟨h1, h2⟩ := (Nat.log2_eq_iff hm).mp rfl
  have hstep : 2 ^ (m.log2 - 4) = 2 * 2 ^ (m.log2 - 5) := by
    rw [← Nat.pow_succ']
    congr 1
    omega
  have htop : 2 ^ m.log2 = 32 * 2 ^ (m.log2 - 5) := by
    have hpow : 2 ^ (m.log2 - 5 + 5) = 2 ^ (m.log2 - 5) * 2 ^ 5 := Nat.pow_add 2 (m.log2 - 5) 5
    rw [Nat.sub_add_cancel (by omega)] at hpow
    omega
  refine ⟨2 ^ (m.log2 - 5), ?_, htop, by omega, ?_⟩
  · rw [middle, if_neg (by omega), hstep]
  · rw [Nat.pow_succ] at h2
    omega

/-- Half of the step with which the coder goes up in the segment of a magnitude. -/
def halfStep (m : Nat) : Nat := if segment m = 0 then 8 else 2 ^ (segment m + 2)

theorem halfStep_high {m w : Nat} (h : 256 ≤ m) (hw : 2 ^ m.log2 = 32 * w) : halfStep m = w := by
  obtain ⟨h8, hs⟩ := segment_high h
  have hpow : 2 ^ (segment m + 2 + 5) = 2 ^ (segment m + 2) * 2 ^ 5 := Nat.pow_add 2 (segment m + 2) 5
  rw [show segment m + 2 + 5 = m.log2 by omega, hw] at hpow
  rw [halfStep, if_neg (by omega)]
  omega

/-- The middle of a step is half a step above its start, and half a step below the next one. -/
theorem middle_error (m : Nat) : middle m ≤ m + halfStep m ∧ m + 1 ≤ middle m + halfStep m := by
  by_cases h : m < 256
  · rw [middle, if_pos h, halfStep, if_pos (segment_low h)]
    omega
  · obtain ⟨w, hw, htop, hle, hlt⟩ := step_of (not_lt.mp h)
    have hdiv := Nat.div_add_mod' m (2 * w)
    have hmod := Nat.mod_lt m (by omega : 0 < 2 * w)
    rw [hw, halfStep_high (not_lt.mp h) htop]
    omega

/-- It is on the same side of all powers of two. -/
theorem middle_bounds {m : Nat} (h : 256 ≤ m) : 2 ^ m.log2 ≤ middle m ∧ middle m < 2 ^ (m.log2 + 1) := by
  obtain ⟨w, hw, htop, hle, hlt⟩ := step_of h
  have hw0 : 0 < 2 * w := by omega
  have hlo : 16 * (2 * w) ≤ m / (2 * w) * (2 * w) :=
    Nat.mul_le_mul_right _ ((Nat.le_div_iff_mul_le hw0).mpr (by omega))
  have hhi : m / (2 * w) * (2 * w) ≤ 31 * (2 * w) :=
    Nat.mul_le_mul_right _ (Nat.le_of_lt_succ ((Nat.div_lt_iff_lt_mul hw0).mpr (by omega)))
  rw [hw, Nat.pow_succ, htop]
  omega

/-- The scale goes up. -/
theorem middle_mono {m m' : Nat} (h : m ≤ m') : middle m ≤ middle m' := by
  by_cases hm' : m' < 256
  · rw [middle, middle, if_pos hm', if_pos (by omega)]
    omega
  have hlo' := (middle_bounds (not_lt.mp hm')).1
  by_cases hm : m < 256
  · have h8 : 8 ≤ m'.log2 := (Nat.le_log2 (by omega)).mpr (not_lt.mp hm')
    have hpow : 2 ^ 8 ≤ 2 ^ m'.log2 := Nat.pow_le_pow_right (by decide) h8
    have hsmall : middle m ≤ 248 := by
      rw [middle, if_pos hm]
      omega
    omega
  · by_cases hl : m.log2 = m'.log2
    · rw [middle, middle, if_neg hm, if_neg hm', hl]
      exact Nat.add_le_add_right (Nat.mul_le_mul_right _ (Nat.div_le_div_right h)) _
    · have hlog : m.log2 ≤ m'.log2 := by
        rw [Nat.le_log2 (by omega)]
        exact le_trans ((Nat.le_log2 (by omega)).mp (le_refl _)) h
      have hhi := (middle_bounds (not_lt.mp hm)).2
      have hpow : 2 ^ (m.log2 + 1) ≤ 2 ^ m'.log2 := Nat.pow_le_pow_right (by decide) (by omega)
      omega

theorem magnitude_lt {x : Int} (h : -32768 ≤ x) (h' : x ≤ 32767) : magnitude x < 2 ^ 15 := by
  rw [magnitude]
  split_ifs <;> omega

/-- A sample of 16 bits comes back with an error of at most half a step of its segment, and no
two samples change places. -/
theorem alaw_error_mono (x y : Int) (hx : -32768 ≤ x) (hxy : x ≤ y) (hy : y ≤ 32767) :
    (alawToLinear (linearToAlaw x) - x).natAbs ≤ halfStep (magnitude x) ∧
      alawToLinear (linearToAlaw x) ≤ alawToLinear (linearToAlaw y) := by
  rw [alaw_middle (magnitude_lt hx (by omega)), alaw_middle (magnitude_lt (by omega) hy)]
  have herr := middle_error (magnitude x)
  generalize halfStep (magnitude x) = w at herr ⊢
  simp only [magnitude] at herr ⊢
  by_cases h0 : 0 ≤ x
  · have hmono := middle_mono (show x.toNat ≤ y.toNat by omega)
    rw [if_pos h0, if_pos h0, if_pos (by omega), if_pos (by omega)]
    rw [if_pos h0] at herr
    omega
  · rw [if_neg h0] at herr
    rw [if_neg h0, if_neg h0]
    by_cases h1 : 0 ≤ y
    · rw [if_pos h1, if_pos h1]
      omega
    · have hmono := middle_mono (show (-y - 1).toNat ≤ (-x - 1).toNat by omega)
      rw [if_neg h1, if_neg h1]
      omega

theorem alaw_error_mono_step : (alawToLinear (linearToAlaw (-300)) - -300).natAbs ≤ halfStep (magnitude (-300)) ∧
    alawToLinear (linearToAlaw (-300)) ≤ alawToLinear (linearToAlaw 1000) :=
  alaw_error_mono (-300) 1000 (by decide) (by decide) (by decide)

end OpenR2
