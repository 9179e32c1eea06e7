import Mathlib.Tactic.Ring
import TableQuery.Number.Binary64

/-!
# Rounding to the nearest magnitude

`Binary64.nearest` depends on its ratio only, it gives back every magnitude from the number
of units that the magnitude stands for, it is zero below half a unit, and it is no less than
`Binary64.infinite` from 2²⁰⁹⁸ units on.
-/

namespace TableQuery.Binary64

/-! ### Rounding a ratio -/

/-- Rounding depends on the ratio only. -/
theorem roundHalfEven_mul_right (num den : Nat) {k : Nat} (hk : 0 < k) :
  roundHalfEven (num * k) (den * k) = roundHalfEven num den
  := by
  have hrest : num * k % (den * k) = num % den * k := Nat.mul_mod_mul_right k num den
  have hlt : 2 * (num % den * k) < den * k ↔ 2 * (num % den) < den := by
    rw [← Nat.mul_assoc, Nat.mul_lt_mul_right hk]
  have heq : 2 * (num % den * k) = den * k ↔ 2 * (num % den) = den := by
    rw [← Nat.mul_assoc, Nat.mul_left_inj (by omega)]
  simp only [roundHalfEven, Nat.mul_div_mul_right num den hk, hrest, hlt, heq]

/-- A multiple of the denominator is rounded exactly. -/
theorem roundHalfEven_mul_self (n : Nat) {den : Nat} (hden : 0 < den) :
  roundHalfEven (n * den) den = n
  := by
  simp only [roundHalfEven, Nat.mul_div_cancel n hden, Nat.mul_mod_left, Nat.mul_zero, hden,
    true_or, if_true]

/-- Rounding goes down by less than one. -/
theorem div_le_roundHalfEven (num den : Nat) :
  num / den ≤ roundHalfEven num den
  := by
  simp only [roundHalfEven]
  split
  · apply Nat.le_refl
  · apply Nat.le_succ

/-- Rounding goes up by at most one. -/
theorem roundHalfEven_le_div_succ (num den : Nat) :
  roundHalfEven num den ≤ num / den + 1
  := by
  simp only [roundHalfEven]
  split
  · apply Nat.le_succ
  · apply Nat.le_refl

/-- A ratio of 53 bits or more is rounded to at least 2⁵² steps of its own. -/
theorem fractions_le_roundHalfEven {num den : Nat} (h : 52 ≤ (num / den).log2) :
  fractions ≤ roundHalfEven num (den * 2 ^ ((num / den).log2 - 52))
  := by
  have hne : num / den ≠ 0 := by
    intro hzero
    rw [hzero] at h
    exact absurd h (by decide)
  have hfrac : fractions = 2 ^ 52 := rfl
  apply Nat.le_trans _ (div_le_roundHalfEven _ _)
  rw [← Nat.div_div_eq_div_mul]
  apply (Nat.le_div_iff_mul_le (Nat.two_pow_pos _)).mpr
  rw [hfrac, ← Nat.pow_add, Nat.add_sub_cancel' h]
  apply Nat.log2_self_le hne

/-- A ratio is rounded to at most 2⁵³ steps of its own. -/
theorem roundHalfEven_le_two_mul_fractions (num den : Nat) :
  roundHalfEven num (den * 2 ^ ((num / den).log2 - 52)) ≤ 2 * fractions
  := by
  have htwice : 2 * fractions = 2 ^ 53 := rfl
  apply Nat.le_trans (roundHalfEven_le_div_succ _ _)
  rw [← Nat.div_div_eq_div_mul, htwice]
  apply Nat.div_lt_of_lt_mul
  apply Nat.lt_of_lt_of_le Nat.lt_log2_self
  rw [← Nat.pow_add]
  apply Nat.pow_le_pow_right (by decide)
  omega

/-- The nearest magnitude depends on the ratio only. -/
theorem nearest_mul_right (num den : Nat) {k : Nat} (hk : 0 < k) :
  nearest (num * k) (den * k) = nearest num den
  := by
  simp only [nearest, Nat.mul_div_mul_right num den hk]
  rw [Nat.mul_right_comm, roundHalfEven_mul_right _ _ hk]

/-- Equal ratios have the same nearest magnitude. -/
theorem nearest_congr {a b c d : Nat} (hb : 0 < b) (hd : 0 < d) (h : a * d = c * b) :
  nearest a b = nearest c d
  := by
  rw [← nearest_mul_right a b hd, h, Nat.mul_comm b d, nearest_mul_right c d hb]

/-! ### Units -/

/-- Below 2⁵³ a magnitude is its own number of units. -/
theorem units_of_lt {m : Nat} (hm : m < 2 * fractions) :
  units m = m
  := by
  have hzero : doublings m = 0 := by
    simp only [doublings, fractions] at hm ⊢
    omega
  simp only [units, hzero, Nat.zero_mul, Nat.sub_zero, Nat.pow_eq, Nat.pow_zero, Nat.mul_one]

/-- From 2⁵³ on a magnitude consists of the doublings of its step and a number of steps that
takes 53 bits. -/
theorem steps_of_le {m : Nat} (hm : 2 * fractions ≤ m) :
  fractions ≤ m - doublings m * fractions ∧ m - doublings m * fractions < 2 * fractions
  := by
  simp only [doublings, fractions] at hm ⊢
  omega

/-- The bits of a number of steps that takes 53 bits. -/
theorem log2_steps {n k : Nat} (hlow : fractions ≤ n) (hhigh : n < 2 * fractions) :
  (n * 2 ^ k).log2 = 52 + k
  := by
  have hpos : 0 < n := Nat.lt_of_lt_of_le (by decide) hlow
  apply (Nat.log2_eq_iff (Nat.ne_of_gt (Nat.mul_pos hpos (Nat.two_pow_pos k)))).mpr
  constructor
  · rw [Nat.pow_add]
    apply Nat.mul_le_mul_right
    apply hlow
  · rw [Nat.add_right_comm, Nat.pow_add]
    apply Nat.mul_lt_mul_of_pos_right hhigh (Nat.two_pow_pos k)

/-- A magnitude is the nearest one to its own number of units. -/
theorem nearest_units (m : Nat) :
  nearest (units m) 1 = m
  := by
  rcases Nat.lt_or_ge m (2 * fractions) with hm | hm
  · have hlog : m.log2 - 52 = 0 := by
      rcases Nat.eq_zero_or_pos m with rfl | hpos
      · rfl
      · have := (Nat.log2_lt (k := 53) (by omega)).mpr hm
        omega
    rw [units_of_lt hm, nearest, Nat.div_one, hlog, Nat.pow_eq, Nat.pow_zero, Nat.zero_mul,
      Nat.zero_add]
    simpa using roundHalfEven_mul_self m Nat.one_pos
  · obtain ⟨hlow, hhigh⟩ := steps_of_le hm
    have hlog : (units m).log2 - 52 = doublings m := by
      rw [units, Nat.pow_eq, log2_steps hlow hhigh, Nat.add_sub_cancel_left]
    rw [nearest, Nat.div_one, hlog, units, Nat.pow_eq, Nat.one_mul,
      roundHalfEven_mul_self _ (Nat.two_pow_pos _)]
    omega

/-! ### The ends of the range -/

/-- Less than half a unit is rounded to zero. -/
theorem nearest_of_lt_half {num den : Nat} (h : 2 * num < den) :
  nearest num den = 0
  := by
  have hdiv : num / den = 0 := Nat.div_eq_of_lt (by omega)
  have hmod : num % den = num := Nat.mod_eq_of_lt (by omega)
  have hstep : Nat.log2 0 - 52 = 0 := rfl
  simp only [nearest, hdiv, hstep, Nat.zero_mul, Nat.pow_eq, Nat.pow_zero, Nat.mul_one,
    Nat.zero_add, roundHalfEven, hmod, h, true_or, if_true]

/-- From 2¹⁰²⁴ on, which is 2²⁰⁹⁸ units, a number is rounded to no less than infinity. -/
theorem infinite_le_nearest {num den e : Nat} (hden : 0 < den) (he : 2098 ≤ e)
    (h : den * 2 ^ e ≤ num) :
  infinite ≤ nearest num den
  := by
  have hdiv : 2 ^ e ≤ num / den := (Nat.le_div_iff_mul_le hden).mpr (by rwa [Nat.mul_comm])
  have hne : num / den ≠ 0 := Nat.ne_of_gt (Nat.lt_of_lt_of_le (Nat.two_pow_pos _) hdiv)
  have hlog : e ≤ (num / den).log2 := (Nat.le_log2 hne).mpr hdiv
  have hrounded := @fractions_le_roundHalfEven num den (by omega)
  generalize hL : (num / den).log2 = L at hlog hrounded
  have hstep : 2046 * fractions ≤ (L - 52) * fractions := Nat.mul_le_mul_right _ (by omega)
  have hinf : infinite = 2046 * fractions + fractions := rfl
  simp only [nearest, hL, Nat.pow_eq]
  omega

end TableQuery.Binary64
