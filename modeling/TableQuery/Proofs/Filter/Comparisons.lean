import TableQuery.Filter.Evaluation
import TableQuery.Proofs.Number.Exact

/-!
# Comparisons of numbers

Two numeric values stand in the order of their places, and two integers in their own order
(`Value.compareNumbers_eq`); a filter compares them in no other way.  An integer has the place of
the double nearest to it.  So the order is that of the numbers that the values stand for, but an
integer equals the double that it is rounded to (`Value.order_eq`).  The order is total, and it is
transitive unless two integers meet in the double that both are rounded to (`Value.order_trans`).
-/

namespace TableQuery

/-! ### Places -/

namespace Binary64

variable {x y : Binary64}

/-- The place of a double among all doubles, the same for both zeros. -/
def place (x : Binary64) : Int :=
  if x.isNaN then x.rank else x.signed

theorem place_of_not_isNaN (hx : x.isNaN = false) :
  x.place = x.signed
  := by
  rw [place, hx, if_neg Bool.false_ne_true]

theorem place_ofInt (i : Int) :
  (ofInt i).place = (ofInt i).signed
  := place_of_not_isNaN (isNaN_ofInt i)

/-- A NaN lies beyond the infinity of its sign. -/
theorem infinite_lt_natAbs_place (hx : x.isNaN = true) :
  infinite < x.place.natAbs
  := by
  have hmagnitude : infinite < x.magnitude := of_decide_eq_true hx
  rw [place, hx, if_pos rfl, rank]
  split <;> omega

/-- Where one of two doubles is a NaN, their total order is the order of their places. -/
theorem rank_lt_iff (h : x.isNaN = true ∨ y.isNaN = true) :
  x.rank < y.rank ↔ x.place < y.place
  := by
  simp only [isNaN, decide_eq_true_eq] at h
  simp only [place, isNaN, decide_eq_true_eq, rank, signed]
  grind

/-- Doubles stand in the order of their places. -/
theorem compareDoubles_eq (x y : Binary64) :
  Value.compareDoubles x y = compare x.place y.place
  := by
  rw [Value.compareDoubles, compareNumbers?]
  by_cases hnan : x.isNaN = true ∨ y.isNaN = true
  · rw [if_pos (Bool.or_eq_true_iff.mpr hnan), Option.getD_none, compareRanks]
    have hiff := rank_lt_iff hnan
    have hiff' := rank_lt_iff hnan.symm
    rcases lt_trichotomy x.place y.place with hlt | heq | hgt
    · rw [compare_lt_iff_lt.mpr hlt, compare_lt_iff_lt.mpr (hiff.mpr hlt)]
    · rw [compare_eq_iff_eq.mpr heq, compare_eq_iff_eq.mpr (by omega)]
    · rw [compare_gt_iff_gt.mpr hgt, compare_gt_iff_gt.mpr (hiff'.mpr hgt)]
  · rw [not_or, Bool.not_eq_true, Bool.not_eq_true] at hnan
    obtain ⟨hx, hy⟩ := hnan
    rw [hx, hy, place_of_not_isNaN hx, place_of_not_isNaN hy]
    rfl

/-- Only zero is rounded to a zero. -/
theorem signed_ofInt_eq_zero {i : Int} (h : (ofInt i).signed = 0) :
  i = 0
  := by
  by_contra hne
  have hpos := magnitude_ofInt_pos hne
  rw [← natAbs_signed, h] at hpos
  cases hpos

end Binary64

/-! ### The order of numbers -/

namespace Value

variable {u v w : Value}

/-- The place of a numeric value among the doubles. -/
def place : Value → Int
  | int i => (Binary64.ofInt i.toInt).place
  | float x => x.place
  | _ => 0

/-- The order of two numeric values. -/
def order : Value → Value → Ordering
  | int i, int j => compare i.toInt j.toInt
  | v, w => compare v.place w.place

/-- Whether the first value is an integer and the second one the double nearest to it. -/
def roundsTo : Value → Value → Bool
  | int i, float x => x = Binary64.ofInt i.toInt
  | _, _ => false

/-- Whether different integers are rounded to one double, the value in the middle. -/
def meetIn (u v w : Value) : Bool :=
  u.roundsTo v && w.roundsTo v && u != w

/-- The number that a value stands for, if it is a numeric value other than a NaN. -/
noncomputable def toEReal? : Value → Option EReal
  | int i => some ((i.toInt : ℝ) : EReal)
  | float x => if x.isNaN then none else some x.toEReal
  | _ => none

theorem int_or_float_of_isNumeric (hv : v.isNumeric = true) :
  (∃ i, v = int i) ∨ ∃ x, v = float x
  := by
  cases v with
  | int i => exact .inl ⟨i, rfl⟩
  | float x => exact .inr ⟨x, rfl⟩
  | _ => cases hv

/-- Numeric values are compared by their order. -/
theorem compareNumbers_eq (hv : v.isNumeric = true) (hw : w.isNumeric = true) :
  v.compareNumbers w = .ok (v.order w)
  := by
  rcases int_or_float_of_isNumeric hv with ⟨i, rfl⟩ | ⟨x, rfl⟩
  · rcases int_or_float_of_isNumeric hw with ⟨j, rfl⟩ | ⟨y, rfl⟩
    · rfl
    · have hdoubles : (int i).compareNumbers (float y)
          = .ok (compareDoubles (.ofInt i.toInt) y) := rfl
      rw [hdoubles, Binary64.compareDoubles_eq]
      rfl
  · rcases int_or_float_of_isNumeric hw with ⟨j, rfl⟩ | ⟨y, rfl⟩
    · have hdoubles : (float x).compareNumbers (int j)
          = .ok (compareDoubles x (.ofInt j.toInt)) := rfl
      rw [hdoubles, Binary64.compareDoubles_eq]
      rfl
    · have hdoubles : (float x).compareNumbers (float y) = .ok (compareDoubles x y) := rfl
      rw [hdoubles, Binary64.compareDoubles_eq]
      rfl

theorem order_self (v : Value) :
  v.order v = .eq
  := by
  cases v <;> exact compare_eq_iff_eq.mpr rfl

theorem order_swap (v w : Value) :
  (v.order w).swap = w.order v
  := by
  cases v <;> cases w <;> exact Std.OrientedOrd.eq_swap.symm

theorem toEReal?_float_eq_some_iff {x : Binary64} {a : EReal} :
  (float x).toEReal? = some a ↔ x.isNaN = false ∧ x.toEReal = a
  := by
  rw [toEReal?]
  cases x.isNaN <;> simp

/-- An integer and a double stand in the order of their numbers, unless the integer is rounded to
the double. -/
theorem order_int_float (i : Int64) {x : Binary64} (hx : x.isNaN = false) :
  (int i).order (float x)
    = if (int i).roundsTo (float x) then .eq else compare ((i.toInt : ℝ) : EReal) x.toEReal
  := by
  have hplaces : (int i).order (float x) = compare (Binary64.ofInt i.toInt).place x.place := rfl
  rw [hplaces, Binary64.place_ofInt, Binary64.place_of_not_isNaN hx]
  by_cases hrounds : (int i).roundsTo (float x) = true
  · have heq : x = Binary64.ofInt i.toInt := of_decide_eq_true hrounds
    rw [if_pos hrounds, heq, compare_eq_iff_eq.mpr rfl]
  · rw [if_neg hrounds]
    by_cases hsigned : (Binary64.ofInt i.toInt).signed = x.signed
    · -- A double other than the rounded integer shares its place only if both are zeros.
      have hzero : (Binary64.ofInt i.toInt).signed = 0 := by
        by_contra hne
        apply hrounds
        apply decide_eq_true (Binary64.eq_of_signed_eq hsigned hne).symm
      have hnumber : x.toEReal = 0 := by
        apply Binary64.toEReal_of_signed_eq_zero
        rw [← hsigned, hzero]
      have hinteger : ((i.toInt : ℝ) : EReal) = 0 := by
        rw [Binary64.signed_ofInt_eq_zero hzero, Int.cast_zero, EReal.coe_zero]
      rw [hnumber, hinteger, compare_eq_iff_eq.mpr hsigned, compare_eq_iff_eq.mpr rfl]
    · rw [Binary64.compare_intCast_toEReal hx hsigned]

theorem order_float_int (i : Int64) {x : Binary64} (hx : x.isNaN = false) :
  (float x).order (int i)
    = if (int i).roundsTo (float x) then .eq else compare x.toEReal ((i.toInt : ℝ) : EReal)
  := by
  rw [← order_swap, order_int_float i hx, ← cmp_eq_compare, ← cmp_eq_compare,
    apply_ite Ordering.swap, cmp_swap]
  rfl

/-- Numeric values stand in the order of their numbers, unless one is rounded to the other. -/
theorem order_eq {a b : EReal} (hv : v.toEReal? = some a) (hw : w.toEReal? = some b) :
  v.order w = if v.roundsTo w || w.roundsTo v then .eq else compare a b
  := by
  cases v with
  | int i =>
    obtain rfl := Option.some.inj hv
    cases w with
    | int j =>
      obtain rfl := Option.some.inj hw
      have hmono : StrictMono fun k : Int => ((k : ℝ) : EReal) :=
        EReal.coe_strictMono.comp Int.cast_strictMono
      have hnumbers := hmono.cmp_map_eq i.toInt j.toInt
      rw [cmp_eq_compare, cmp_eq_compare] at hnumbers
      exact hnumbers.symm
    | float y =>
      obtain ⟨hy, rfl⟩ := toEReal?_float_eq_some_iff.mp hw
      have hnot : (float y).roundsTo (int i) = false := rfl
      rw [order_int_float i hy, hnot, Bool.or_false]
    | _ => cases hw
  | float x =>
    obtain ⟨hx, rfl⟩ := toEReal?_float_eq_some_iff.mp hv
    cases w with
    | int j =>
      obtain rfl := Option.some.inj hw
      have hnot : (float x).roundsTo (int j) = false := rfl
      rw [order_float_int j hx, hnot, Bool.false_or]
    | float y =>
      obtain ⟨hy, rfl⟩ := toEReal?_float_eq_some_iff.mp hw
      have hplaces : (float x).order (float y) = compare x.place y.place := rfl
      rw [hplaces, Binary64.place_of_not_isNaN hx, Binary64.place_of_not_isNaN hy,
        ← Binary64.compare_toEReal hx hy]
      rfl
    | _ => cases hw
  | _ => cases hv

/-- Numeric values in order have their places in order. -/
theorem place_le_of_order (hv : v.isNumeric = true) (hw : w.isNumeric = true)
    (h : v.order w ≠ .gt) :
  v.place ≤ w.place
  := by
  rcases int_or_float_of_isNumeric hv with ⟨i, rfl⟩ | ⟨x, rfl⟩
  · rcases int_or_float_of_isNumeric hw with ⟨j, rfl⟩ | ⟨y, rfl⟩
    · rw [place, place, Binary64.place_ofInt, Binary64.place_ofInt]
      apply Binary64.signed_ofInt_mono (compare_le_iff_le.mp h)
    · apply compare_le_iff_le.mp h
  · rcases int_or_float_of_isNumeric hw with ⟨j, rfl⟩ | ⟨y, rfl⟩ <;> apply compare_le_iff_le.mp h

/-- A double with the place of two integers is the double that both are rounded to. -/
theorem meetIn_of_place_eq {i j : Int64} {x : Binary64} (hne : i ≠ j)
    (hi : (int i).place = x.place) (hj : (int j).place = x.place) :
  meetIn (int i) (float x) (int j) = true
  := by
  rw [place, Binary64.place_ofInt] at hi hj
  have hx : x.isNaN = false := by
    by_contra hnan
    have hbound := Binary64.natAbs_signed_le (Binary64.isNaN_ofInt i.toInt)
    have hbeyond := Binary64.infinite_lt_natAbs_place (Bool.not_eq_false _ ▸ hnan)
    omega
  rw [Binary64.place_of_not_isNaN hx] at hi hj
  have hnonzero : x.signed ≠ 0 := by
    intro hzero
    have hi' := Binary64.signed_ofInt_eq_zero (hi.trans hzero)
    have hj' := Binary64.signed_ofInt_eq_zero (hj.trans hzero)
    exact hne (Int64.toInt_inj.mp (hi'.trans hj'.symm))
  have hxi := Binary64.eq_of_signed_eq hi.symm hnonzero
  have hxj := Binary64.eq_of_signed_eq hj.symm hnonzero
  simp only [meetIn, roundsTo, Bool.and_eq_true, decide_eq_true_eq, bne_iff_ne, ne_eq,
    Value.int.injEq]
  exact ⟨⟨hxi, hxj⟩, hne⟩

/-- The order of numeric values is transitive, unless integers meet in the middle. -/
theorem order_trans (hu : u.isNumeric = true) (hv : v.isNumeric = true) (hw : w.isNumeric = true)
    (hmeet : meetIn u v w = false) (huv : u.order v ≠ .gt) (hvw : v.order w ≠ .gt) :
  u.order w ≠ .gt
  := by
  have hplaces := place_le_of_order hu hv huv
  have hplaces' := place_le_of_order hv hw hvw
  rcases int_or_float_of_isNumeric hu with ⟨i, rfl⟩ | ⟨x, rfl⟩
  · rcases int_or_float_of_isNumeric hw with ⟨j, rfl⟩ | ⟨z, rfl⟩
    · apply compare_le_iff_le.mpr
      rcases int_or_float_of_isNumeric hv with ⟨k, rfl⟩ | ⟨y, rfl⟩
      · exact (compare_le_iff_le.mp huv).trans (compare_le_iff_le.mp hvw)
      · by_contra hlt
        have hback : (int j).place ≤ (int i).place := by
          rw [place, place, Binary64.place_ofInt, Binary64.place_ofInt]
          apply Binary64.signed_ofInt_mono (not_le.mp hlt).le
        have hne : i ≠ j := by
          rintro rfl
          exact hlt le_rfl
        have hmeet' := meetIn_of_place_eq hne (hplaces.antisymm (hplaces'.trans hback))
          ((hback.trans hplaces).antisymm hplaces')
        rw [hmeet] at hmeet'
        cases hmeet'
    · apply compare_le_iff_le.mpr (hplaces.trans hplaces')
  · rcases int_or_float_of_isNumeric hw with ⟨j, rfl⟩ | ⟨z, rfl⟩ <;>
      apply compare_le_iff_le.mpr (hplaces.trans hplaces')

theorem roundsTo_eq_true_iff :
  v.roundsTo w = true ↔ ∃ i : Int64, v = int i ∧ w = float (.ofInt i.toInt)
  := by
  constructor
  · intro h
    cases v with
    | int i =>
      cases w with
      | float x =>
        have hx : x = .ofInt i.toInt := of_decide_eq_true h
        use i, rfl
        rw [hx]
      | _ => cases h
    | _ => cases h
  · rintro ⟨i, rfl, rfl⟩
    apply decide_eq_true rfl

/-- An integer equals the double that it is rounded to. -/
theorem order_of_roundsTo (h : v.roundsTo w = true) :
  v.order w = .eq
  := by
  obtain ⟨i, rfl, rfl⟩ := roundsTo_eq_true_iff.mp h
  exact compare_eq_iff_eq.mpr rfl

/-- Only an integer beyond 2⁵³ is rounded to a double that stands for another number. -/
theorem lt_natAbs_of_roundsTo (h : v.roundsTo w = true) (hne : v.toEReal? ≠ w.toEReal?) :
  ∃ i, v = int i ∧ 2 ^ 53 < i.toInt.natAbs
  := by
  obtain ⟨i, rfl, rfl⟩ := roundsTo_eq_true_iff.mp h
  use i, rfl
  by_contra hsmall
  apply hne
  rw [toEReal?, toEReal?, Binary64.isNaN_ofInt, if_neg Bool.false_ne_true,
    Binary64.toEReal_ofInt (not_lt.mp hsmall)]

theorem meetIn_symm (u v w : Value) :
  meetIn w v u = meetIn u v w
  := by
  rw [meetIn, meetIn, Bool.and_comm (w.roundsTo v), bne_comm]

theorem order_eq_eq_iff :
  v.order w = .eq ↔ v.order w ≠ .gt ∧ w.order v ≠ .gt
  := by
  rw [← order_swap v w]
  cases v.order w <;> simp

/-- Equality of numeric values is transitive, unless integers meet in the middle. -/
theorem order_eq_trans (hu : u.isNumeric = true) (hv : v.isNumeric = true)
    (hw : w.isNumeric = true) (hmeet : meetIn u v w = false) (huv : u.order v = .eq)
    (hvw : v.order w = .eq) :
  u.order w = .eq
  := by
  rw [order_eq_eq_iff] at huv hvw ⊢
  use order_trans hu hv hw hmeet huv.1 hvw.1
  rw [← meetIn_symm] at hmeet
  apply order_trans hw hv hu hmeet hvw.2 huv.2

/-- Integers that meet equal the double in the middle, and not each other. -/
theorem order_of_meetIn (h : meetIn u v w = true) :
  u.order v = .eq ∧ v.order w = .eq ∧ u.order w ≠ .eq
  := by
  rw [meetIn, Bool.and_eq_true, Bool.and_eq_true, bne_iff_ne] at h
  obtain ⟨⟨huv, hwv⟩, hne⟩ := h
  refine ⟨order_of_roundsTo huv, ?_, ?_⟩
  · rw [← order_swap w v, order_of_roundsTo hwv]
    rfl
  · obtain ⟨i, rfl, -⟩ := roundsTo_eq_true_iff.mp huv
    obtain ⟨j, rfl, -⟩ := roundsTo_eq_true_iff.mp hwv
    intro heq
    apply hne
    rw [Int64.toInt_inj.mp (compare_eq_iff_eq.mp heq)]

end Value

/-! ### Comparisons in filters -/

namespace Filter

variable {u v w : Value}

theorem compareAsNumbers_eq (hv : v.isNumeric = true) (hw : w.isNumeric = true) :
  compareAsNumbers v w = .ok (v.order w)
  := by
  rw [compareAsNumbers, Value.compareNumbers_eq hv hw]
  rfl

theorem isEqual_eq (hv : v.isNumeric = true) (hw : w.isNumeric = true) :
  isEqual v w = .ok (v.order w).isEq
  := by
  have hnumbers : isEqual v w = (compareAsNumbers v w).map (·.isEq) := by
    rcases Value.int_or_float_of_isNumeric hv with ⟨i, rfl⟩ | ⟨x, rfl⟩ <;>
      rcases Value.int_or_float_of_isNumeric hw with ⟨j, rfl⟩ | ⟨y, rfl⟩ <;> rfl
  rw [hnumbers, compareAsNumbers_eq hv hw]
  rfl

theorem compareValues_eq (hv : v.isNumeric = true) (hw : w.isNumeric = true) :
  compareValues v w = .ok (v.order w)
  := by
  have hnumbers : compareValues v w = compareAsNumbers v w := by
    rcases Value.int_or_float_of_isNumeric hv with ⟨i, rfl⟩ | ⟨x, rfl⟩ <;>
      rcases Value.int_or_float_of_isNumeric hw with ⟨j, rfl⟩ | ⟨y, rfl⟩ <;> rfl
  rw [hnumbers, compareAsNumbers_eq hv hw]

/-- Numeric values are compared without an error and by one order, which is that of the numbers
that they stand for unless an integer is compared with the double that it is rounded to.  These are
equal, and they stand for different numbers only if the integer is beyond 2⁵³.  Equality is
reflexive and symmetric and the order is total, and both are transitive unless different integers
meet in the middle, which equals both of them. -/
theorem compareValues_of_isNumeric (hu : u.isNumeric = true) (hv : v.isNumeric = true)
    (hw : w.isNumeric = true) :
  (∃ o, u.compareNumbers v = .ok o ∧ isEqual u v = .ok o.isEq ∧ compareValues u v = .ok o ∧
    isEqual v u = .ok o.isEq ∧ compareValues v u = .ok o.swap ∧
    ∀ a b, u.toEReal? = some a → v.toEReal? = some b →
      o = if u.roundsTo v || v.roundsTo u then .eq else compare a b) ∧
  (u.roundsTo v = true → u.toEReal? ≠ v.toEReal? →
    ∃ i, u = .int i ∧ 2 ^ 53 < i.toInt.natAbs) ∧
  isEqual u u = .ok true ∧
  (Value.meetIn u v w = false →
    (compareValues u v ≠ .ok .gt → compareValues v w ≠ .ok .gt → compareValues u w ≠ .ok .gt) ∧
    (isEqual u v = .ok true → isEqual v w = .ok true → isEqual u w = .ok true)) ∧
  (Value.meetIn u v w = true →
    isEqual u v = .ok true ∧ isEqual v w = .ok true ∧ isEqual u w = .ok false)
  := by
  have hequal {v w : Value} (hv : v.isNumeric = true) (hw : w.isNumeric = true) :
      isEqual v w = .ok true ↔ v.order w = .eq := by
    rw [isEqual_eq hv hw, Except.ok.injEq, Ordering.isEq_iff_eq_eq]
  have hcompare {v w : Value} (hv : v.isNumeric = true) (hw : w.isNumeric = true) :
      compareValues v w ≠ .ok .gt ↔ v.order w ≠ .gt := by
    rw [compareValues_eq hv hw, ne_eq, Except.ok.injEq]
  refine ⟨?order, Value.lt_natAbs_of_roundsTo, ?reflexive, ?transitive, ?meet⟩
  case order =>
    have hswap : isEqual v u = .ok (u.order v).isEq := by
      rw [isEqual_eq hv hu, ← Value.order_swap u v]
      cases u.order v <;> rfl
    use u.order v, Value.compareNumbers_eq hu hv, isEqual_eq hu hv, compareValues_eq hu hv, hswap
    rw [compareValues_eq hv hu, Value.order_swap]
    exact ⟨rfl, fun a b => Value.order_eq⟩
  case reflexive =>
    rw [hequal hu hu, Value.order_self]
  case transitive =>
    intro hmeet
    rw [hcompare hu hv, hcompare hv hw, hcompare hu hw, hequal hu hv, hequal hv hw, hequal hu hw]
    exact ⟨Value.order_trans hu hv hw hmeet, Value.order_eq_trans hu hv hw hmeet⟩
  case meet =>
    intro hmeet
    obtain ⟨huv, hvw, hne⟩ := Value.order_of_meetIn hmeet
    rw [hequal hu hv, hequal hv hw, isEqual_eq hu hw]
    use huv, hvw
    congr 1
    rwa [Bool.eq_false_iff, ne_eq, Ordering.isEq_iff_eq_eq]

/-- An integer, a zero and an infinity, which stand in the order of their numbers. -/
theorem compareValues_of_isNumeric_of_ends :
  ∃ u v w : Value, u = .int (-3) ∧ v = .float .zero ∧
    w = .float (.ofMagnitude false Binary64.infinite) ∧
    u.isNumeric = true ∧ v.isNumeric = true ∧ w.isNumeric = true ∧
    u.toEReal? = some ((-3 : ℝ) : EReal) ∧ v.toEReal? = some 0 ∧
    isEqual u v = .ok false ∧ compareValues u v = .ok .lt ∧
    Value.meetIn u v w = false ∧ compareValues v w ≠ .ok .gt ∧ compareValues u w ≠ .ok .gt
  := by
  have hinteger : (Value.int (-3)).toEReal? = some ((-3 : ℝ) : EReal) := by
    have hvalue : (-3 : Int64).toInt = -3 := by decide
    rw [Value.toEReal?, hvalue]
    norm_num
  have hzero : (Value.float .zero).toEReal? = some 0 :=
    Value.toEReal?_float_eq_some_iff.mpr ⟨rfl, Binary64.toEReal_of_signed_eq_zero rfl⟩
  have hmeet : Value.meetIn (.int (-3)) (.float .zero)
      (.float (.ofMagnitude false Binary64.infinite)) = false := by decide +kernel
  have hrounds : ((Value.int (-3)).roundsTo (.float .zero) ||
      (Value.float .zero).roundsTo (.int (-3))) = false := by decide +kernel
  have hlt : compare ((-3 : ℝ) : EReal) 0 = .lt := by
    apply compare_lt_iff_lt.mpr
    exact_mod_cast (by norm_num : (-3 : ℝ) < 0)
  have hvw : compareValues (.float .zero) (.float (.ofMagnitude false Binary64.infinite))
      ≠ .ok .gt := by decide +kernel
  obtain ⟨⟨o, -, hequal, hcompare, -, -, ho⟩, -, -, htransitive, -⟩ :=
    @compareValues_of_isNumeric (.int (-3)) (.float .zero)
      (.float (.ofMagnitude false Binary64.infinite)) rfl rfl rfl
  have ho := ho _ _ hinteger hzero
  rw [hrounds, if_neg Bool.false_ne_true, hlt] at ho
  subst ho
  have huv : compareValues (.int (-3)) (.float .zero) ≠ .ok .gt := by
    rw [hcompare]
    decide
  exact ⟨_, _, _, rfl, rfl, rfl, rfl, rfl, rfl, hinteger, hzero, hequal, hcompare, hmeet, hvw,
    (htransitive hmeet).1 huv hvw⟩

/-- The integers 2⁵³ and 2⁵³ + 1 meet in the double 2⁵³.  It equals both, although it is smaller
than the second one, and so equality and order are not transitive. -/
theorem compareNumbers_of_neighbour :
  ∃ x : Binary64, x = .ofBits 0x4340000000000000 ∧
    (∃ a b, (Value.int 9007199254740993).toEReal? = some a ∧ (Value.float x).toEReal? = some b ∧
      compare a b = .gt) ∧
    (Value.int 9007199254740993).compareNumbers (.float x) = .ok .eq ∧
    isEqual (.int 9007199254740993) (.float x) = .ok true ∧
    isEqual (.float x) (.int 9007199254740992) = .ok true ∧
    isEqual (.int 9007199254740993) (.int 9007199254740992) = .ok false ∧
    compareValues (.int 9007199254740993) (.float x) = .ok .eq ∧
    compareValues (.float x) (.int 9007199254740992) = .ok .eq ∧
    compareValues (.int 9007199254740993) (.int 9007199254740992) = .ok .gt
  := by
  have hx : Binary64.ofBits 0x4340000000000000 = .ofInt 9007199254740992 := by decide +kernel
  have hnumber : (Value.float (.ofInt 9007199254740992)).toEReal?
      = some ((9007199254740992 : ℝ) : EReal) := by
    apply Value.toEReal?_float_eq_some_iff.mpr ⟨Binary64.isNaN_ofInt _, ?_⟩
    rw [Binary64.toEReal_ofInt (by decide)]
    norm_num
  have hinteger : (Value.int 9007199254740993).toEReal?
      = some ((9007199254740993 : ℝ) : EReal) := by
    have hvalue : (9007199254740993 : Int64).toInt = 9007199254740993 := by decide
    rw [Value.toEReal?, hvalue]
    norm_num
  use .ofBits 0x4340000000000000, rfl
  refine ⟨⟨_, _, hinteger, hx ▸ hnumber, ?_⟩, by decide +kernel, by decide +kernel,
    by decide +kernel, by decide +kernel, by decide +kernel, by decide +kernel,
    by decide +kernel⟩
  apply compare_gt_iff_gt.mpr
  exact_mod_cast (by norm_num : (9007199254740992 : ℝ) < 9007199254740993)

end Filter

end TableQuery
