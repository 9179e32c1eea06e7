import TableQuery.Proofs.Number.Numeral

/-!
# The order of rounded integers

Rounding keeps the order of numbers, but does not keep them apart: `Binary64.signed_ofInt_mono`
says that the doubles nearest to integers stand in the order of the integers, and
`Binary64.signed_ofInt_lt` that integers are kept apart by those up to 2⁵³, which are doubles
themselves.  So the numeric order of the doubles of two integers is the order of the integers
where the doubles differ (`Binary64.signed_ofInt_lt_iff`).
-/

namespace TableQuery.Binary64

/-! ### Rounding and order -/

theorem roundHalfEven_mono (den : Nat) {a b : Nat} (h : a ≤ b) :
  roundHalfEven a den ≤ roundHalfEven b den
  := by
  rcases Nat.lt_or_ge (a / den) (b / den) with hlt | hge
  · calc roundHalfEven a den ≤ a / den + 1 := roundHalfEven_le_div_succ a den
      _ ≤ b / den := hlt
      _ ≤ roundHalfEven b den := div_le_roundHalfEven b den
  · have hdiv : a / den = b / den := Nat.le_antisymm (Nat.div_le_div_right h) hge
    have hmod : a % den ≤ b % den := by
      have ha := Nat.div_add_mod a den
      have hb := Nat.div_add_mod b den
      rw [hdiv] at ha
      omega
    simp only [roundHalfEven, hdiv]
    split
    · split
      · apply Nat.le_refl
      · apply Nat.le_succ
    · next hup =>
      rw [if_neg (by omega)]

/-- The nearest magnitudes of ratios stand in the order of the ratios. -/
theorem nearest_mono (den : Nat) {a b : Nat} (h : a ≤ b) :
  nearest a den ≤ nearest b den
  := by
  have hdiv : a / den ≤ b / den := Nat.div_le_div_right h
  have hlog : (a / den).log2 ≤ (b / den).log2 := by
    by_cases hzero : a / den = 0
    · rw [hzero]
      apply Nat.zero_le
    · have hself := Nat.log2_self_le hzero
      apply (Nat.le_log2 (Nat.ne_of_gt _)).mpr (Nat.le_trans hself hdiv)
      apply Nat.lt_of_lt_of_le (Nat.pos_of_ne_zero hzero) hdiv
  rcases Nat.lt_or_ge ((a / den).log2 - 52) ((b / den).log2 - 52) with hlt | hge
  · -- The larger ratio has a coarser step, and is at least 2⁵² steps.
    have ha := roundHalfEven_le_two_mul_fractions a den
    have hb := @fractions_le_roundHalfEven b den (by omega)
    have hstep : ((a / den).log2 - 52 + 1) * fractions ≤ ((b / den).log2 - 52) * fractions :=
      Nat.mul_le_mul_right _ hlt
    rw [Nat.succ_mul] at hstep
    simp only [nearest, Nat.pow_eq]
    omega
  · have hstep : (a / den).log2 - 52 = (b / den).log2 - 52 := by omega
    simp only [nearest, hstep, Nat.pow_eq]
    apply Nat.add_le_add_left
    apply roundHalfEven_mono _ h

/-- A number of units that is a multiple of its step is rounded to itself. -/
theorem units_nearest {num : Nat} (h : 2 ^ (num.log2 - 52) ∣ num) :
  units (nearest num 1) = num
  := by
  have hround : roundHalfEven num (1 * 2 ^ (num.log2 - 52)) = num / 2 ^ (num.log2 - 52) := by
    rw [Nat.one_mul]
    obtain ⟨n, hn⟩ := h
    have hpos := Nat.two_pow_pos (num.log2 - 52)
    generalize 2 ^ (num.log2 - 52) = step at hn hpos
    subst hn
    rw [Nat.mul_div_cancel_left n hpos, Nat.mul_comm, roundHalfEven_mul_self n hpos]
  have htwice : 2 * fractions = 2 ^ 53 := rfl
  have hfrac : fractions = 2 ^ 52 := rfl
  rcases Nat.lt_or_ge num.log2 53 with hlow | hhigh
  · have hstep : num.log2 - 52 = 0 := by omega
    rw [nearest, Nat.div_one, hstep, Nat.zero_mul, Nat.zero_add, Nat.pow_eq, ← hstep, hround,
      hstep, Nat.pow_zero, Nat.div_one]
    apply units_of_lt
    rw [htwice]
    apply Nat.lt_of_lt_of_le Nat.lt_log2_self
    apply Nat.pow_le_pow_right (by decide)
    omega
  · have hne : num ≠ 0 := by
      rintro rfl
      exact absurd hhigh (by decide)
    obtain ⟨step, hstep⟩ : ∃ step, num.log2 = 52 + step := ⟨num.log2 - 52, by omega⟩
    have hsub : num.log2 - 52 = step := by omega
    rw [hsub] at h hround
    have hlow : fractions ≤ num / 2 ^ step := by
      apply (Nat.le_div_iff_mul_le (Nat.two_pow_pos _)).mpr
      rw [hfrac, ← Nat.pow_add, ← hstep]
      apply Nat.log2_self_le hne
    have hhigh : num / 2 ^ step < 2 * fractions := by
      apply Nat.div_lt_of_lt_mul
      rw [htwice, ← Nat.pow_add, Nat.add_comm]
      have hlt := @Nat.lt_log2_self num
      rwa [hstep, Nat.add_right_comm] at hlt
    have hdoublings : doublings (step * fractions + num / 2 ^ step) = step := by
      have hpos : 0 < fractions := by decide
      have hone : num / 2 ^ step / fractions = 1 := by
        apply Nat.div_eq_of_lt_le <;> omega
      rw [doublings, Nat.add_comm, Nat.add_mul_div_right _ _ hpos, hone]
      omega
    rw [nearest, Nat.div_one, hsub, Nat.pow_eq, hround, units, hdoublings, Nat.add_sub_cancel_left,
      Nat.pow_eq, Nat.div_mul_cancel h]

/-! ### Integers -/

/-- The units of an integer up to 2⁵³ are a multiple of their step. -/
theorem two_pow_dvd_mul_one {n : Nat} (hn : n ≤ 2 ^ 53) :
  2 ^ ((n * one).log2 - 52) ∣ n * one
  := by
  obtain ⟨k, -, hone⟩ := one_eq_two_pow
  rw [hone]
  rcases Nat.lt_or_ge n (2 ^ 53) with hlt | hge
  · rcases Nat.eq_zero_or_pos n with rfl | hpos
    · simp
    · have hlog : (n * 2 ^ k).log2 < 53 + k := by
        apply (Nat.log2_lt (Nat.ne_of_gt (Nat.mul_pos hpos (Nat.two_pow_pos k)))).mpr
        rw [Nat.pow_add]
        apply Nat.mul_lt_mul_of_pos_right hlt (Nat.two_pow_pos k)
      apply Nat.dvd_mul_left_of_dvd
      apply Nat.pow_dvd_pow
      omega
  · obtain rfl : n = 2 ^ 53 := Nat.le_antisymm hn hge
    rw [← Nat.pow_add, Nat.log2_two_pow]
    apply Nat.pow_dvd_pow
    omega

theorem magnitude_ofInt (i : Int) :
  (ofInt i).magnitude = min (nearest (i.natAbs * one) 1) infinite
  := rfl

theorem isNaN_ofInt (i : Int) :
  (ofInt i).isNaN = false
  := by
  rw [isNaN, decide_eq_false_iff_not, magnitude_ofInt]
  apply Nat.not_lt.mpr (Nat.min_le_right _ _)

theorem magnitude_ofInt_mono {i j : Int} (h : i.natAbs ≤ j.natAbs) :
  (ofInt i).magnitude ≤ (ofInt j).magnitude
  := by
  have hnearest := nearest_mono 1 (Nat.mul_le_mul_right one h)
  rw [magnitude_ofInt, magnitude_ofInt]
  omega

/-- Only zero is rounded to a zero. -/
theorem magnitude_ofInt_pos {i : Int} (h : i ≠ 0) :
  0 < (ofInt i).magnitude
  := by
  have hone : 0 < (ofInt 1).magnitude := by decide +kernel
  apply Nat.lt_of_lt_of_le hone
  apply magnitude_ofInt_mono
  omega

theorem signed_ofInt (i : Int) :
  (ofInt i).signed = if i < 0 then -((ofInt i).magnitude : Int) else (ofInt i).magnitude
  := by
  simp [signed, ofInt, ofRatio, ofMagnitude]

/-- The doubles nearest to integers stand in the order of the integers. -/
theorem signed_ofInt_mono {i j : Int} (h : i ≤ j) :
  (ofInt i).signed ≤ (ofInt j).signed
  := by
  rw [signed_ofInt, signed_ofInt]
  split
  · split
    · have := magnitude_ofInt_mono (i := j) (j := i) (by omega)
      omega
    · omega
  · have := magnitude_ofInt_mono (i := i) (j := j) (by omega)
    rw [if_neg (by omega)]
    omega

/-- Integers that are rounded to equal numbers are rounded to the same double: no integer is
rounded to the negative zero. -/
theorem signed_ofInt_inj {i j : Int} :
  (ofInt i).signed = (ofInt j).signed ↔ ofInt i = ofInt j
  := by
  constructor
  · intro h
    have hnegative (k : Int) : (ofInt k).negative = decide (k < 0) := rfl
    rw [signed_ofInt, signed_ofInt] at h
    have hsigns : i < 0 ↔ j < 0 := by
      constructor
      · intro hi
        have := magnitude_ofInt_pos (Int.ne_of_lt hi)
        omega
      · intro hj
        have := magnitude_ofInt_pos (Int.ne_of_lt hj)
        omega
    have hmagnitude : (ofInt i).magnitude = (ofInt j).magnitude := by
      split at h <;> split at h <;> omega
    have hsign : (ofInt i).negative = (ofInt j).negative := by
      rw [hnegative, hnegative, decide_eq_decide.mpr hsigns]
    generalize ofInt i = x, ofInt j = y at hmagnitude hsign
    obtain ⟨negative, magnitude, hx⟩ := x
    obtain ⟨negative', magnitude', hy⟩ := y
    subst hmagnitude hsign
    rfl
  · intro h
    rw [h]

/-- A natural number up to 2⁵³ is rounded to a greater double than every integer below it. -/
theorem signed_ofInt_lt {i : Int} {n : Nat} (hn : n ≤ 2 ^ 53) (h : i < n) :
  (ofInt i).signed < (ofInt n).signed
  := by
  cases n with
  | zero =>
    have hminus : (ofInt (-1)).signed < (ofInt (0 : Nat)).signed := by decide +kernel
    apply Int.lt_of_le_of_lt (signed_ofInt_mono _) hminus
    omega
  | succ m =>
    apply Int.lt_of_le_of_lt (signed_ofInt_mono (j := m) (by omega))
    have hlimit : nearest (2 ^ 53 * one) 1 ≤ infinite := by decide +kernel
    have hfinite : nearest ((m + 1) * one) 1 ≤ nearest (2 ^ 53 * one) 1 :=
      nearest_mono 1 (Nat.mul_le_mul_right one hn)
    have hle : nearest (m * one) 1 ≤ nearest ((m + 1) * one) 1 :=
      nearest_mono 1 (Nat.mul_le_mul_right one (Nat.le_succ m))
    have hne : nearest (m * one) 1 ≠ nearest ((m + 1) * one) 1 := by
      intro heq
      have hunits := congrArg units heq
      rw [units_nearest (two_pow_dvd_mul_one (by omega)),
        units_nearest (two_pow_dvd_mul_one hn)] at hunits
      have := Nat.eq_of_mul_eq_mul_right (by decide +kernel) hunits
      omega
    rw [signed_ofInt, signed_ofInt, if_neg (by omega), if_neg (by omega), magnitude_ofInt,
      magnitude_ofInt, Int.natAbs_natCast, Int.natAbs_natCast]
    omega

/-- The doubles of two integers are in order if the integers are and are kept apart. -/
theorem signed_ofInt_lt_iff {i j : Int} :
  (ofInt i).signed < (ofInt j).signed ↔ i < j ∧ ofInt i ≠ ofInt j
  := by
  constructor
  · intro h
    refine ⟨?_, fun heq => ?_⟩
    · by_contra hle
      have := signed_ofInt_mono (Int.not_lt.mp hle)
      omega
    · rw [heq] at h
      exact Int.lt_irrefl _ h
  · rintro ⟨hlt, hne⟩
    have hle := signed_ofInt_mono (Int.le_of_lt hlt)
    rw [ne_eq, ← signed_ofInt_inj] at hne
    omega

/-- Every integer that is rounded as a natural number below 2⁵³ is that number. -/
theorem ofInt_inj_of_lt {i : Int} {n : Nat} (hn : n < 2 ^ 53) :
  ofInt i = ofInt n ↔ i = n
  := by
  constructor
  · intro h
    rcases Int.lt_trichotomy i n with hlt | heq | hgt
    · have := signed_ofInt_lt (Nat.le_of_lt hn) hlt
      rw [h] at this
      omega
    · exact heq
    · have hnext := signed_ofInt_lt (i := n) (n := n + 1) hn (by omega)
      have hle := signed_ofInt_mono (i := (n + 1 : Nat)) (j := i) (by omega)
      rw [h] at hle
      omega
  · intro h
    rw [h]

end TableQuery.Binary64
