import Mathlib.Algebra.Order.Field.Power
import Mathlib.Data.EReal.Operations
import TableQuery.Proofs.Number.Order

/-!
# Exact numbers of doubles

`Binary64.toEReal` is the number that a double stands for, read off its exponent and fraction
fields, an infinity at each end.  The numeric order of doubles is the order of these numbers
(`Binary64.compare_toEReal`).  The double nearest to an integer lies on the same side of any other
double as the integer itself (`Binary64.signed_le_of_toEReal_le`,
`Binary64.le_signed_of_le_toEReal`), and it stands for the integer itself up to 2⁵³
(`Binary64.toEReal_ofInt`).
-/

namespace TableQuery.Binary64

/-! ### Numbers -/

/-- The number of a finite magnitude.  A fraction field alone counts steps of 2⁻¹⁰⁷⁴; with an
exponent field it has a leading one, and the exponent scales the step. -/
noncomputable def real (magnitude : Nat) : ℝ :=
  let exponent := magnitude / fractions
  let fraction := magnitude % fractions
  if exponent = 0 then fraction * 2 ^ (-1074 : ℤ)
  else (fractions + fraction) * 2 ^ (exponent - 1075 : ℤ)

/-- The number of a magnitude, which may be infinite. -/
noncomputable def size (magnitude : Nat) : EReal :=
  if magnitude = infinite then ⊤ else real magnitude

/-- The number of a double that is not a NaN. -/
noncomputable def toEReal (x : Binary64) : EReal :=
  if x.negative then -size x.magnitude else size x.magnitude

theorem cast_one :
  (one : ℝ) = 2 ^ (1074 : ℤ)
  := by
  obtain ⟨k, rfl, hone⟩ := one_eq_two_pow
  rw [hone, Nat.cast_pow, Nat.cast_ofNat, ← zpow_natCast]
  rfl

theorem cast_one_pos :
  (0 : ℝ) < one
  := by
  rw [cast_one]
  positivity

/-- The number of a magnitude is its number of units, each of 2⁻¹⁰⁷⁴. -/
theorem real_eq (m : Nat) :
  real m = units m / one
  := by
  rw [real, units, doublings, cast_one, div_eq_mul_inv, ← zpow_neg]
  rcases Nat.eq_zero_or_pos (m / fractions) with hzero | hpos
  · have hmod : m % fractions = m := by
      have := Nat.div_add_mod m fractions
      rwa [hzero, Nat.mul_zero, Nat.zero_add] at this
    simp [hzero, hmod]
  · obtain ⟨d, hd⟩ : ∃ d, m / fractions = d + 1 := ⟨m / fractions - 1, by omega⟩
    have hsteps : m - d * fractions = fractions + m % fractions := by
      have := Nat.div_add_mod m fractions
      rw [hd, Nat.mul_succ, Nat.mul_comm] at this
      omega
    have hexponent : ((d + 1 : ℕ) : ℤ) - 1075 = d + -1074 := by
      push_cast
      ring
    simp only [hd, Nat.succ_ne_zero, if_false, Nat.add_sub_cancel, hsteps, hexponent]
    rw [zpow_add₀ two_ne_zero, zpow_natCast]
    push_cast [Nat.pow_eq]
    ring

theorem units_lt {m n : Nat} (h : m < n) :
  units m < units n
  := by
  by_contra hle
  have hnearest := nearest_mono 1 (Nat.not_lt.mp hle)
  rw [nearest_units, nearest_units] at hnearest
  omega

theorem real_lt {m n : Nat} (h : m < n) :
  real m < real n
  := by
  rw [real_eq, real_eq]
  apply div_lt_div_of_pos_right _ cast_one_pos
  exact_mod_cast units_lt h

theorem size_lt {m n : Nat} (h : m < n) (hn : n ≤ infinite) :
  size m < size n
  := by
  rw [size, size, if_neg (by omega)]
  split
  · apply EReal.coe_lt_top
  · exact_mod_cast real_lt h

theorem size_zero :
  size 0 = 0
  := by
  have hzero : (0 : Nat) ≠ infinite := by decide
  rw [size, if_neg hzero, real_eq, units_of_lt (by decide), Nat.cast_zero, zero_div, EReal.coe_zero]

theorem size_nonneg {m : Nat} (h : m ≤ infinite) :
  0 ≤ size m
  := by
  rcases Nat.eq_zero_or_pos m with rfl | hpos
  · rw [size_zero]
  · rw [← size_zero]
    apply (size_lt hpos h).le

/-! ### Order -/

/-- The number of a magnitude with a sign. -/
noncomputable def signedSize (k : Int) : EReal :=
  if k < 0 then -size k.natAbs else size k.natAbs

theorem signedSize_lt {j k : Int} (hj : j.natAbs ≤ infinite) (hk : k.natAbs ≤ infinite)
    (h : j < k) :
  signedSize j < signedSize k
  := by
  rw [signedSize, signedSize]
  split
  · split
    · apply EReal.neg_lt_neg_iff.mpr
      apply size_lt _ hj
      omega
    · have hneg : -size j.natAbs < 0 := by
        rw [← neg_zero, EReal.neg_lt_neg_iff, ← size_zero]
        apply size_lt _ hj
        omega
      apply hneg.trans_le (size_nonneg hk)
  · rw [if_neg (by omega)]
    apply size_lt _ hk
    omega

theorem toEReal_eq (x : Binary64) :
  x.toEReal = signedSize x.signed
  := by
  rw [toEReal, signedSize, signed]
  cases x.negative with
  | false => simp
  | true =>
    rcases Nat.eq_zero_or_pos x.magnitude with hzero | hpos
    · simp [hzero, size_zero]
    · simp [hpos]

/-- Both zeros stand for zero. -/
theorem toEReal_of_signed_eq_zero {x : Binary64} (h : x.signed = 0) :
  x.toEReal = 0
  := by
  rw [toEReal_eq, h, signedSize, if_neg (lt_irrefl 0), Int.natAbs_zero, size_zero]

theorem signed_neg (x : Binary64) :
  x.neg.signed = -x.signed
  := by
  cases hsign : x.negative <;> simp [signed, neg, hsign]

theorem toEReal_neg (x : Binary64) :
  x.neg.toEReal = -x.toEReal
  := by
  cases hsign : x.negative <;> simp [toEReal, neg, hsign]

theorem natAbs_signed (x : Binary64) :
  x.signed.natAbs = x.magnitude
  := by
  rw [signed]
  split <;> simp

theorem magnitude_le_infinite {x : Binary64} (hx : x.isNaN = false) :
  x.magnitude ≤ infinite
  := Nat.not_lt.mp (of_decide_eq_false hx)

theorem natAbs_signed_le {x : Binary64} (hx : x.isNaN = false) :
  x.signed.natAbs ≤ infinite
  := by
  rw [natAbs_signed]
  apply magnitude_le_infinite hx

/-- Only the two zeros share a magnitude with its sign. -/
theorem eq_of_signed_eq {x y : Binary64} (h : x.signed = y.signed) (hne : x.signed ≠ 0) :
  x = y
  := by
  obtain ⟨negative, magnitude, hx⟩ := x
  obtain ⟨negative', magnitude', hy⟩ := y
  simp only [signed] at h hne
  have hsign : negative = negative' := by
    cases negative <;> cases negative' <;>
      simp only [if_true, Bool.false_eq_true, if_false] at * <;> omega
  subst hsign
  have hmagnitude : magnitude = magnitude' := by
    split at h <;> omega
  subst hmagnitude
  rfl

/-- The numeric order of doubles is the order of their numbers. -/
theorem compare_toEReal {x y : Binary64} (hx : x.isNaN = false) (hy : y.isNaN = false) :
  compare x.toEReal y.toEReal = compare x.signed y.signed
  := by
  have hmono : StrictMonoOn signedSize {k | k.natAbs ≤ infinite} :=
    fun _ hj _ hk h => signedSize_lt hj hk h
  rw [← cmp_eq_compare, ← cmp_eq_compare, toEReal_eq, toEReal_eq]
  apply hmono.cmp_map_eq (natAbs_signed_le hx) (natAbs_signed_le hy)

/-! ### Integers -/

section Integers

variable {x : Binary64} {i : Int}

/-- The number of units of a double with its sign. -/
def signedUnits (x : Binary64) : Int :=
  if x.negative then -units x.magnitude else units x.magnitude

/-- The number of a double that is neither an infinity nor a NaN. -/
theorem toEReal_of_finite (hx : x.magnitude < infinite) :
  x.toEReal = ((x.signedUnits / one : ℝ) : EReal)
  := by
  rw [toEReal, size, if_neg hx.ne, real_eq, signedUnits]
  cases x.negative with
  | false => rw [if_neg Bool.false_ne_true, if_neg Bool.false_ne_true, Int.cast_natCast]
  | true =>
    rw [if_pos rfl, if_pos rfl, ← EReal.coe_neg, ← neg_div, Int.cast_neg, Int.cast_natCast]

theorem toEReal_le_intCast_iff (hx : x.magnitude < infinite) :
  x.toEReal ≤ ((i : ℝ) : EReal) ↔ x.signedUnits ≤ i * one
  := by
  rw [toEReal_of_finite hx, EReal.coe_le_coe_iff, div_le_iff₀ cast_one_pos]
  exact_mod_cast Iff.rfl

/-- The magnitude that an integer is rounded to lies on the same side of any other magnitude as the
integer itself. -/
theorem magnitude_ofInt_bounds (i : Int) {m : Nat} (hm : m ≤ infinite) :
  (units m ≤ i.natAbs * one → m ≤ (ofInt i).magnitude) ∧
    (i.natAbs * one ≤ units m → (ofInt i).magnitude ≤ m)
  := by
  have hself := nearest_units m
  rw [magnitude_ofInt]
  constructor <;> intro h <;> have hnearest := nearest_mono 1 h <;> omega

theorem intCast_mul_one (i : Int) :
  i * one = if i < 0 then -((i.natAbs * one : Nat) : Int) else (i.natAbs * one : Nat)
  := by
  rw [Nat.cast_mul]
  split
  · rw [← Int.neg_mul]
    congr 1
    omega
  · congr 1
    omega

theorem signed_ofInt_neg (i : Int) :
  (ofInt (-i)).signed = -(ofInt i).signed
  := by
  have hzero : i = 0 → (ofInt i).magnitude = 0 := by
    rintro rfl
    decide +kernel
  have hmagnitude : (ofInt (-i)).magnitude = (ofInt i).magnitude := by
    rw [magnitude_ofInt, magnitude_ofInt, Int.natAbs_neg]
  rw [signed_ofInt, signed_ofInt, hmagnitude]
  omega

theorem natAbs_mul_one_pos (hi : i ≠ 0) :
  0 < i.natAbs * one
  := by
  apply Nat.mul_pos (Int.natAbs_pos.mpr hi)
  exact_mod_cast cast_one_pos

/-- A double no greater than an integer is no greater than the double nearest to the integer. -/
theorem signed_le_of_toEReal_le (hx : x.isNaN = false) (h : x.toEReal ≤ ((i : ℝ) : EReal)) :
  x.signed ≤ (ofInt i).signed
  := by
  rcases (magnitude_le_infinite hx).lt_or_eq with hfinite | hinfinite
  · obtain ⟨hup, hdown⟩ := magnitude_ofInt_bounds i hfinite.le
    have hpos := @natAbs_mul_one_pos i
    rw [toEReal_le_intCast_iff hfinite, intCast_mul_one, signedUnits] at h
    rw [signed_ofInt, signed]
    generalize i.natAbs * one = n, units x.magnitude = u at *
    cases hsign : x.negative <;> by_cases hi : i < 0 <;>
      simp only [hsign, hi, if_true, if_false, Bool.false_eq_true] at h ⊢ <;> omega
  · cases hsign : x.negative with
    | true =>
      have hbound := natAbs_signed_le (isNaN_ofInt i)
      have hsigned : x.signed = -infinite := by
        rw [signed, hsign, if_pos rfl, hinfinite]
      omega
    | false =>
      rw [toEReal, hsign, if_neg Bool.false_ne_true, size, if_pos hinfinite] at h
      exact absurd h (not_le.mpr (EReal.coe_lt_top _))

/-- A double no less than an integer is no less than the double nearest to the integer. -/
theorem le_signed_of_le_toEReal (hx : x.isNaN = false) (h : ((i : ℝ) : EReal) ≤ x.toEReal) :
  (ofInt i).signed ≤ x.signed
  := by
  have hneg : x.neg.toEReal ≤ (((-i : Int) : ℝ) : EReal) := by
    rw [toEReal_neg, Int.cast_neg, EReal.coe_neg]
    apply EReal.neg_le_neg_iff.mpr h
  have hsigned := signed_le_of_toEReal_le (x := x.neg) hx hneg
  rw [signed_neg, signed_ofInt_neg] at hsigned
  omega

/-- The order of an integer and a double is that of the double nearest to the integer and the other
double, unless these are equal. -/
theorem compare_intCast_toEReal (hx : x.isNaN = false) (hne : (ofInt i).signed ≠ x.signed) :
  compare ((i : ℝ) : EReal) x.toEReal = compare (ofInt i).signed x.signed
  := by
  rcases lt_or_gt_of_ne hne with hlt | hgt
  · have h : ((i : ℝ) : EReal) < x.toEReal := by
      by_contra hle
      exact absurd (signed_le_of_toEReal_le hx (not_lt.mp hle)) (not_le.mpr hlt)
    rw [compare_lt_iff_lt.mpr h, compare_lt_iff_lt.mpr hlt]
  · have h : x.toEReal < ((i : ℝ) : EReal) := by
      by_contra hle
      exact absurd (le_signed_of_le_toEReal hx (not_lt.mp hle)) (not_le.mpr hgt)
    rw [compare_gt_iff_gt.mpr h, compare_gt_iff_gt.mpr hgt]

/-- An integer up to 2⁵³ is a double. -/
theorem toEReal_ofInt (hi : i.natAbs ≤ 2 ^ 53) :
  (ofInt i).toEReal = ((i : ℝ) : EReal)
  := by
  have hlimit : nearest (2 ^ 53 * one) 1 < infinite := by decide +kernel
  have hnearest := nearest_mono 1 (Nat.mul_le_mul_right one hi)
  have hmagnitude : (ofInt i).magnitude = nearest (i.natAbs * one) 1 := by
    rw [magnitude_ofInt]
    omega
  have hunits : (ofInt i).signedUnits = i * one := by
    have hnegative : (ofInt i).negative = decide (i < 0) := rfl
    rw [signedUnits, hmagnitude, units_nearest (two_pow_dvd_mul_one hi), intCast_mul_one, hnegative]
    simp only [decide_eq_true_eq]
  rw [toEReal_of_finite (by omega), hunits, Int.cast_mul, Int.cast_natCast,
    mul_div_cancel_right₀ _ cast_one_pos.ne']

end Integers

end TableQuery.Binary64
