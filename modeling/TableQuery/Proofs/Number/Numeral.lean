import TableQuery.Number.Notation
import TableQuery.Proofs.Number.Rounding
import TableQuery.Proofs.Text.Spans

/-!
# Numerals and the doubles they stand for

A numeral without an exponent is two runs of digits with a point between them, and it reads as
the double nearest to the ratio of its digits and a power of ten.  `Binary64.plain` writes a
finite double as such a numeral, and reading that numeral gives the double back.
-/

namespace TableQuery

/-! ### Digits -/

theorem toNat_of_isDigit {c : Char} (h : c.isDigit = true) :
  48 ≤ c.toNat ∧ c.toNat ≤ 57
  := by
  simpa [Char.isDigit, UInt32.le_iff_toNat_le] using h

/-- A nonempty run of decimal digits. -/
def IsDigits (cs : List Char) : Prop :=
  cs ≠ [] ∧ ∀ c ∈ cs, c.isDigit = true

theorem isDigits_toDigits (n : Nat) :
  IsDigits (toDigits n)
  := by
  constructor
  · apply Nat.toDigits_ne_nil
  · intro c hc
    apply Nat.isDigit_of_mem_toDigits (by decide) (by decide) hc

theorem IsDigits.append {cs ds : List Char} (hc : IsDigits cs) (hd : ∀ c ∈ ds, c.isDigit = true) :
  IsDigits (cs ++ ds)
  := by
  constructor
  · simp [hc.1]
  · intro c h
    rcases List.mem_append.mp h with h | h
    · apply hc.2 c h
    · apply hd c h

theorem isDigit_of_mem_zeros {n : Nat} {c : Char} (h : c ∈ List.replicate n '0') :
  c.isDigit = true
  := by
  rw [(List.mem_replicate.mp h).2]
  rfl

/-- Zeros after the digits of a number multiply it. -/
theorem ofDigits_append_zeros (cs : List Char) (n : Nat) :
  ofDigits (cs ++ List.replicate n '0') = ofDigits cs * 10 ^ n
  := by
  rw [ofDigits, Nat.ofDigitChars_append, Nat.ofDigitChars_replicate_zero, Nat.mul_comm]
  rfl

/-- Zeros before the digits of a number do not change it. -/
theorem ofDigits_zeros_append (n : Nat) (cs : List Char) :
  ofDigits (List.replicate n '0' ++ cs) = ofDigits cs
  := by
  rw [ofDigits, Nat.ofDigitChars_append, Nat.ofDigitChars_replicate_zero, Nat.mul_zero]
  rfl

/-! ### Reading a numeral -/

/-- A numeral without an exponent: digits, a point, and digits. -/
structure IsNumeral (cs whole fraction : List Char) : Prop where
  text : cs = whole ++ '.' :: fraction
  whole : IsDigits whole
  fraction : IsDigits fraction

theorem readSign_cons {c : Char} (hminus : c ≠ '-') (hplus : c ≠ '+') (cs : List Char) :
  readSign (c :: cs) = (false, c :: cs)
  := by
  unfold readSign
  split
  · next h => cases h; contradiction
  · next h => cases h; contradiction
  · rfl

/-- A text that starts with a digit has no sign. -/
theorem readSign_of_isDigit {c : Char} {cs : List Char} (hc : c.isDigit = true) :
  readSign (c :: cs) = (false, c :: cs)
  := by
  have hminus : c ≠ '-' := by
    rintro rfl
    simp at hc
  have hplus : c ≠ '+' := by
    rintro rfl
    simp at hc
  apply readSign_cons hminus hplus

theorem readSign_of_isDigits {cs : List Char} (h : IsDigits cs) :
  readSign cs = (false, cs)
  := by
  obtain ⟨c, ds, rfl⟩ := List.exists_cons_of_ne_nil h.1
  apply readSign_of_isDigit (h.2 c List.mem_cons_self)

theorem readDigits?_eq_some_iff {cs : List Char} {n : Nat} :
  readDigits? cs = some n ↔ IsDigits cs ∧ ofDigits cs = n
  := by
  simp [readDigits?, IsDigits]

/-- An integer is its sign and the number that the digits after it spell. -/
theorem readInt?_eq_some_iff {cs rest : List Char} {negative : Bool}
    (hsign : readSign cs = (negative, rest)) {i : Int} :
  readInt? cs = some i ↔
    IsDigits rest ∧ (if negative then -(ofDigits rest : Int) else ofDigits rest) = i
  := by
  simp only [readInt?, hsign]
  cases hread : readDigits? rest with
  | none =>
    have hnot : ¬ IsDigits rest := by
      intro h
      rw [readDigits?_eq_some_iff.mpr ⟨h, rfl⟩] at hread
      cases hread
    simp [hnot]
  | some n =>
    obtain ⟨hdigits, rfl⟩ := readDigits?_eq_some_iff.mp hread
    simp [hdigits]

/-- The parts of a numeral with a point, once its sign has been taken off. -/
theorem Decimal.read?_of_isNumeral {cs whole fraction : List Char} {negative : Bool}
    {rest : List Char} (hcs : readSign cs = (negative, rest))
    (h : IsNumeral rest whole fraction) :
  Decimal.read? cs
    = some (negative, ⟨ofDigits (whole ++ fraction), -(fraction.length : Int)⟩)
  := by
  have hspan : rest.span Char.isDigit = (whole, '.' :: fraction) := by
    have hpoint : ∀ c ∈ ('.' :: fraction).head?, c.isDigit = false := by simp
    rw [List.span_eq_takeWhile_dropWhile, h.text, takeWhile_append_of_ends h.whole.2 hpoint,
      dropWhile_append_of_ends h.whole.2 hpoint]
  have hfraction : Decimal.readFraction ('.' :: fraction) = (fraction, []) := by
    rw [Decimal.readFraction, span_eq_self h.fraction.2]
  have hempty : (whole ++ fraction).isEmpty = false := by
    simp [h.whole.1]
  simp only [Decimal.read?, hcs, hspan, hfraction, hempty, Decimal.readExponent?]
  simp

namespace Binary64

/-- The power of two that one is, its exponent left unevaluated. -/
theorem one_eq_two_pow :
  ∃ k, k = 1074 ∧ one = 2 ^ k
  := by
  obtain ⟨k, hk⟩ : ∃ k, k = 1074 := ⟨_, rfl⟩
  refine ⟨k, hk, ?_⟩
  unfold one
  rw [← hk, Nat.pow_eq]

/-- A number with so few digits before its exponent that it is less than half a unit. -/
theorem nearest_of_small {d : Decimal}
    (h : d.exponent + (d.digits.log2 / 3 + 1 : Nat) < -330) :
  nearest (d.num * one) d.den = 0
  := by
  apply nearest_of_lt_half
  have hexp : d.exponent.toNat = 0 := by omega
  have hnum : d.num = d.digits := by
    rw [Decimal.num, hexp, Nat.pow_eq, Nat.pow_zero, Nat.mul_one]
  generalize hk : d.digits.log2 / 3 + 1 = k at h
  have hdigits : d.digits < 10 ^ k :=
    calc d.digits < 2 ^ (d.digits.log2 + 1) := Nat.lt_log2_self
      _ ≤ 2 ^ (3 * k) := Nat.pow_le_pow_right (by decide) (by omega)
      _ = 8 ^ k := by rw [Nat.pow_mul]
      _ ≤ 10 ^ k := Nat.pow_le_pow_left (by decide) k
  obtain ⟨j, hj, hone⟩ : ∃ j, j ≤ 331 ∧ 2 * one < 10 ^ j :=
    ⟨331, by decide, by decide +kernel⟩
  calc 2 * (d.num * one) = d.digits * (2 * one) := by rw [hnum, Nat.mul_left_comm]
    _ < 10 ^ k * 10 ^ j := Nat.mul_lt_mul'' hdigits hone
    _ = 10 ^ (k + j) := (Nat.pow_add 10 k j).symm
    _ ≤ 10 ^ (-d.exponent).toNat := Nat.pow_le_pow_right (by decide) (by omega)
    _ = d.den := rfl

/-- A number with so large an exponent that it is beyond every finite double. -/
theorem infinite_le_nearest_of_large {d : Decimal} (hdigits : d.digits ≠ 0)
    (h : 310 < d.exponent) :
  infinite ≤ nearest (d.num * one) d.den
  := by
  have hexp : (-d.exponent).toNat = 0 := by omega
  have hden : d.den = 1 := by rw [Decimal.den, hexp, Nat.pow_eq, Nat.pow_zero]
  obtain ⟨i, j, hi, hj, hpow⟩ : ∃ i j, 1024 ≤ i ∧ j ≤ 311 ∧ 2 ^ i ≤ 10 ^ j :=
    ⟨1024, 311, by decide, by decide, by decide +kernel⟩
  obtain ⟨k, hk, hone⟩ := one_eq_two_pow
  rw [hden]
  apply infinite_le_nearest (e := i + k) (by decide) (by omega)
  calc 1 * 2 ^ (i + k) = 2 ^ i * one := by rw [Nat.one_mul, hone, Nat.pow_add]
    _ ≤ 10 ^ j * one := Nat.mul_le_mul_right _ hpow
    _ ≤ 10 ^ d.exponent.toNat * one :=
        Nat.mul_le_mul_right _ (Nat.pow_le_pow_right (by decide) (by omega))
    _ ≤ d.num * one :=
        Nat.mul_le_mul_right _ (Nat.le_mul_of_pos_left _ (Nat.pos_of_ne_zero hdigits))

/-- The exponents that are not expanded make no difference: the double nearest to a decimal
number is the one nearest to its ratio. -/
theorem ofDecimal_eq (negative : Bool) (d : Decimal) :
  ofDecimal negative d = ofRatio negative d.num d.den
  := by
  unfold ofDecimal
  split
  · next h =>
    rcases h with h | h
    · have hnum : d.num = 0 := by rw [Decimal.num, h, Nat.zero_mul]
      have hden : 0 < d.den := Nat.pow_pos (by decide)
      rw [ofRatio, hnum, Nat.zero_mul, nearest_of_lt_half (by omega)]
    · rw [ofRatio, nearest_of_small h]
  · next h =>
    split
    · next hlarge =>
      have hdigits : d.digits ≠ 0 := fun hzero => h (Or.inl hzero)
      have hinf := infinite_le_nearest_of_large hdigits hlarge
      simp only [ofRatio, ofMagnitude, Nat.min_eq_right hinf, Nat.min_self]
    · rfl

/-- A numeral with a point reads as the double nearest to the ratio of its digits and a power
of ten. -/
theorem read?_of_isNumeral {cs rest whole fraction : List Char} {negative : Bool}
    (hcs : readSign cs = (negative, rest)) (h : IsNumeral rest whole fraction) :
  read? cs = some (ofRatio negative (ofDigits (whole ++ fraction)) (10 ^ fraction.length))
  := by
  rw [read?, Decimal.read?_of_isNumeral hcs h, Option.map_some]
  simp [ofDecimal_eq, Decimal.num, Decimal.den]

/-- Digits read as the double nearest to the integer that they spell. -/
theorem read?_of_isDigits {cs : List Char} (h : IsDigits cs) :
  read? cs = some (ofInt (ofDigits cs))
  := by
  have hread : Decimal.read? cs = some (false, ⟨ofDigits cs, 0⟩) := by
    simp only [Decimal.read?, readSign_of_isDigits h, span_eq_self h.2, Decimal.readFraction,
      Decimal.readExponent?]
    simp [h.1]
  have hnegative : decide ((ofDigits cs : Int) < 0) = false := by
    apply decide_eq_false
    omega
  rw [read?, hread, Option.map_some]
  simp [ofDecimal_eq, Decimal.num, Decimal.den, ofInt, hnegative]

theorem negative_ofDecimal (negative : Bool) (d : Decimal) :
  (ofDecimal negative d).negative = negative
  := by
  rw [ofDecimal_eq]
  rfl

theorem isNaN_ofDecimal (negative : Bool) (d : Decimal) :
  (ofDecimal negative d).isNaN = false
  := by
  rw [ofDecimal_eq, ofRatio, isNaN, ofMagnitude, decide_eq_false_iff_not]
  apply Nat.not_lt.mpr (Nat.min_le_right _ _)

/-- A numeral that starts with a digit reads as a number without a sign. -/
theorem read?_of_isDigit {c : Char} {cs : List Char} {x : Binary64} (hc : c.isDigit = true)
    (h : read? (c :: cs) = some x) :
  x.negative = false ∧ x.isNaN = false
  := by
  obtain ⟨⟨negative, d⟩, hread, rfl⟩ := Option.map_eq_some_iff.mp h
  rw [negative_ofDecimal, isNaN_ofDecimal]
  simp only [Decimal.read?, readSign_of_isDigit hc] at hread
  split at hread
  · cases hread
  · obtain ⟨e, -, heq⟩ := Option.map_eq_some_iff.mp hread
    cases heq
    exact ⟨rfl, rfl⟩

/-! ### Writing a numeral -/

theorem isNumeral_withPoint {digits : List Char} (hdigits : IsDigits digits) {places : Nat}
    (hplaces : 0 < places) :
  ∃ whole fraction, IsNumeral (withPoint digits places) whole fraction ∧
    fraction.length = places ∧ ofDigits (whole ++ fraction) = ofDigits digits
  := by
  generalize hpadded : List.replicate (places + 1 - digits.length) '0' ++ digits = padded
  have hlength : places < padded.length := by
    rw [← hpadded, List.length_append, List.length_replicate]
    omega
  have hall : ∀ c ∈ padded, c.isDigit = true := by
    intro c hc
    rw [← hpadded] at hc
    rcases List.mem_append.mp hc with hc | hc
    · apply isDigit_of_mem_zeros hc
    · apply hdigits.2 c hc
  refine ⟨padded.take (padded.length - places), padded.drop (padded.length - places), ?_, ?_, ?_⟩
  · constructor
    · rw [withPoint, hpadded]
    · constructor
      · apply List.ne_nil_of_length_pos
        rw [List.length_take]
        omega
      · intro c hc
        apply hall c (List.mem_of_mem_take hc)
    · constructor
      · apply List.ne_nil_of_length_pos
        rw [List.length_drop]
        omega
      · intro c hc
        apply hall c (List.mem_of_mem_drop hc)
  · rw [List.length_drop]
    omega
  · rw [List.take_append_drop, ← hpadded, ofDigits_zeros_append]

/-- Positional notation is a numeral with the ratio of the number. -/
theorem isNumeral_positional (d : Decimal) :
  ∃ whole fraction, IsNumeral d.positional whole fraction ∧
    ofDigits (whole ++ fraction) * d.den = d.num * 10 ^ fraction.length
  := by
  unfold Decimal.positional
  split
  · next h =>
    have hexp : (-d.exponent).toNat = 0 := by omega
    refine ⟨toDigits d.digits ++ List.replicate d.exponent.toNat '0', ['0'], ?_, ?_⟩
    · constructor
      · simp
      · apply (isDigits_toDigits _).append
        intro c hc
        apply isDigit_of_mem_zeros hc
      · constructor <;> simp
    · have hzero : ['0'] = List.replicate 1 '0' := rfl
      rw [Decimal.den, Decimal.num, hexp, Nat.pow_eq, Nat.pow_eq, Nat.pow_zero, Nat.mul_one,
        hzero, ofDigits_append_zeros, ofDigits_append_zeros, ofDigits_toDigits,
        List.length_replicate]
  · next h =>
    have hexp : d.exponent.toNat = 0 := by omega
    obtain ⟨whole, fraction, hnumeral, hlength, hvalue⟩ :=
      isNumeral_withPoint (isDigits_toDigits d.digits) (show 0 < (-d.exponent).toNat by omega)
    refine ⟨whole, fraction, hnumeral, ?_⟩
    rw [hvalue, ofDigits_toDigits, hlength, Decimal.num, Decimal.den, hexp, Nat.pow_eq,
      Nat.pow_eq, Nat.pow_zero, Nat.mul_one]

/-! ### Reading back what is written -/

/-- A magnitude is the nearest one to its exact number. -/
theorem readsBack_exact (m : Nat) :
  readsBack m (exact m) = true
  := by
  obtain ⟨k, hk, hone⟩ := one_eq_two_pow
  have hexact : exact m = ⟨units m * Nat.pow 5 k, -(k : Int)⟩ := by
    have hint : (1074 : Int) = k := by omega
    rw [exact, ← hk, hint]
  have hexp : (-(k : Int)).toNat = 0 := by omega
  have hpos : 0 < 10 ^ k := Nat.pow_pos (by decide)
  have hten : 10 ^ k = 5 ^ k * 2 ^ k := Nat.mul_pow 5 2 k
  have hnear : nearest (units m * 10 ^ k) (1 * 10 ^ k) = m := by
    rw [nearest_mul_right _ _ hpos, nearest_units]
  rw [Nat.one_mul, hten, ← Nat.mul_assoc] at hnear
  simp only [hexact, readsBack, Decimal.num, Decimal.den, hexp, hone, Nat.pow_eq, Nat.pow_zero,
    Nat.mul_one, Int.neg_neg, Int.toNat_natCast, hten, hnear, decide_true]

/-- The search over grids ends with a number that reads back. -/
theorem readsBack_firstOnGrids (tie : Tie) (m n : Nat) (exponent : Int) :
  readsBack m (firstOnGrids tie m n exponent) = true
  := by
  unfold firstOnGrids
  cases h : (List.range n).findSome? fun i : Nat => onGrid? tie m (exponent - i) with
  | none =>
    rw [Option.getD_none]
    apply readsBack_exact
  | some d =>
    obtain ⟨i, -, hd⟩ := List.exists_of_findSome?_eq_some h
    rw [Option.getD_some]
    apply test_of_neighbour? hd

/-- The shortest digits of a magnitude read back as it. -/
theorem readsBack_shortest (tie : Tie) (m : Nat) :
  readsBack m (shortest tie m) = true
  := by
  unfold shortest
  split
  · next h =>
    rw [readsBack, Decimal.num, Nat.zero_mul, Nat.zero_mul, h,
      nearest_of_lt_half (by rw [Decimal.den]; decide)]
    rfl
  · apply readsBack_firstOnGrids

/-- The integer part of a whole double has the number of the double. -/
theorem nearest_integerPart {x : Binary64} (h : x.isWhole = true) :
  nearest (x.integerPart * one) 1 = x.magnitude
  := by
  have hmod : units x.magnitude % one = 0 := by simpa [isWhole] using h
  rw [integerPart, Nat.div_mul_cancel (Nat.dvd_of_mod_eq_zero hmod), nearest_units]

/-- A double with a finite magnitude is the one with its sign and magnitude. -/
theorem ofMagnitude_self {x : Binary64} (h : x.isFinite = true) :
  ofMagnitude x.negative x.magnitude = x
  := by
  have hlt : x.magnitude < infinite := by simpa [isFinite] using h
  obtain ⟨negative, magnitude, hm⟩ := x
  simp only [ofMagnitude, Nat.min_eq_left (Nat.le_of_lt hlt)]

/-- The text of a finite double is its sign and a numeral, whose digits over a power of ten
have the magnitude of the double as their nearest one. -/
theorem isNumeral_plain {x : Binary64} (h : x.isFinite = true) :
  ∃ rest whole fraction, x.plain.toList = x.signText ++ rest ∧ IsNumeral rest whole fraction ∧
    nearest (ofDigits (whole ++ fraction) * one) (10 ^ fraction.length) = x.magnitude
  := by
  have hnan : x.isNaN = false := by
    simp only [isFinite, isNaN, decide_eq_true_eq, decide_eq_false_iff_not] at h ⊢
    omega
  simp only [plain, hnan, h]
  by_cases hwhole : x.isWhole = true
  · refine ⟨toDigits x.integerPart ++ ['.', '0'], toDigits x.integerPart, ['0'], ?_, ?_, ?_⟩
    · simp [hwhole]
    · constructor
      · rfl
      · apply isDigits_toDigits
      · constructor <;> simp
    · have hzero : ['0'] = List.replicate 1 '0' := rfl
      rw [hzero, ofDigits_append_zeros, ofDigits_toDigits, List.length_replicate,
        Nat.mul_right_comm, ← nearest_integerPart hwhole]
      apply nearest_congr (by decide) (by decide) (by rw [Nat.mul_one])
  · obtain ⟨whole, fraction, hnumeral, hratio⟩ :=
      isNumeral_positional (shortest .up x.magnitude)
    refine ⟨_, whole, fraction, ?_, hnumeral, ?_⟩
    · simp [hwhole]
    · have hback : nearest ((shortest .up x.magnitude).num * one) (shortest .up x.magnitude).den
          = x.magnitude := by
        simpa [readsBack] using readsBack_shortest .up x.magnitude
      have hden : 0 < (shortest .up x.magnitude).den := Nat.pow_pos (by decide)
      rw [← hback]
      apply nearest_congr (Nat.pow_pos (by decide)) hden
      rw [Nat.mul_right_comm, hratio, Nat.mul_right_comm]

/-- The sign of a double is read off the front of its text. -/
theorem readSign_signText {x : Binary64} {rest : List Char} {c : Char}
    (hc : c ∈ rest.head?) (hdigit : c.isDigit = true) :
  readSign (x.signText ++ rest) = (x.negative, rest)
  := by
  cases hx : x.negative with
  | true => simp [signText, hx, readSign]
  | false =>
    obtain ⟨ds, rfl⟩ : ∃ ds, rest = c :: ds := by
      cases rest with
      | nil => cases hc
      | cons d ds =>
        obtain rfl : d = c := by simpa using hc
        exact ⟨ds, rfl⟩
    simp only [signText, hx]
    apply readSign_of_isDigit hdigit

/-- The text of a finite double reads as the double. -/
theorem read?_plain {x : Binary64} (h : x.isFinite = true) :
  read? x.plain.toList = some x
  := by
  obtain ⟨rest, whole, fraction, htext, hnumeral, hnear⟩ := isNumeral_plain h
  obtain ⟨c, cs, rfl⟩ := List.exists_cons_of_ne_nil hnumeral.whole.1
  have hhead : c ∈ rest.head? := by simp [hnumeral.text]
  have hsign := readSign_signText (x := x) hhead (hnumeral.whole.2 c List.mem_cons_self)
  rw [htext, read?_of_isNumeral hsign hnumeral, ofRatio, hnear, ofMagnitude_self h]

end Binary64

end TableQuery
