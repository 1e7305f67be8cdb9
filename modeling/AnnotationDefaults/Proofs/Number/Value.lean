import AnnotationDefaults.Proofs.Number.Halfway
import Mathlib.Algebra.Order.Field.Power
import Mathlib.Data.Rat.Cast.Order
import Mathlib.Tactic.FieldSimp
import Mathlib.Tactic.Linarith

set_option autoImplicit false

/-!
Rounding stated on numbers. A body denotes a rational, infinity the power of two that follows
the finite ones, and a number is correctly rounded to the body next to it, a tie to the even
one. The body of a decimal is that of its value, however the decimal is written.
-/

namespace AnnotationDefaults

namespace BinaryFormat

variable {format : BinaryFormat} {body other numerator denominator : Nat} {number : ℚ}

/-- The number that a body denotes; for infinity, the power of two after the finite ones. -/
def value (format : BinaryFormat) (body : Nat) : ℚ := format.magnitude body / 2 ^ format.scale

def halfway (format : BinaryFormat) (body : Nat) : ℚ :=
  (format.value body + format.value (body + 1)) / 2

/-- The number does not pass the point halfway to the next body, which counts for an even body. -/
def RoundsWithin (format : BinaryFormat) (number : ℚ) (body : Nat) : Prop :=
  number < format.halfway body ∨ number = format.halfway body ∧ body % 2 = 0

/-- The body is the correctly rounded one: none is nearer, and of two as near it is the even. -/
structure Rounds (format : BinaryFormat) (number : ℚ) (body : Nat) : Prop where
  le_infinity : body ≤ format.infinity
  nearest : ∀ other ≤ format.infinity,
    |number - format.value body| ≤ |number - format.value other|
  even : ∀ other ≤ format.infinity, other ≠ body →
    |number - format.value other| = |number - format.value body| → body % 2 = 0

theorem value_strictMono (format : BinaryFormat) : StrictMono format.value := by
  intro body other hLess
  have hMagnitude := format.magnitude_strictMono hLess
  exact div_lt_div_of_pos_right (by exact_mod_cast hMagnitude) (by positivity)

theorem value_nonneg (format : BinaryFormat) (body : Nat) : 0 ≤ format.value body :=
  div_nonneg (Nat.cast_nonneg _) (by positivity)

theorem value_lt_halfway (format : BinaryFormat) (body : Nat) :
    format.value body < format.halfway body := by
  have hNext := format.value_strictMono (Nat.lt_succ_self body)
  unfold halfway
  linarith

theorem halfway_lt_value (hLess : body < other) : format.halfway body < format.value other := by
  have hNext := format.value_strictMono (Nat.lt_succ_self body)
  have hOther := format.value_strictMono.monotone (Nat.succ_le_of_lt hLess)
  unfold halfway
  linarith

theorem halfway_mono (format : BinaryFormat) : Monotone format.halfway := by
  intro body other hLe
  have hBody := format.value_strictMono.monotone hLe
  have hNext := format.value_strictMono.monotone (Nat.succ_le_succ hLe)
  unfold halfway
  linarith

theorem halfway_eq (format : BinaryFormat) (body : Nat) :
    format.halfway body = (format.magnitude body + format.magnitude (body + 1) : ℕ) /
      (2 * 2 ^ format.scale) := by
  unfold halfway value
  rw [Nat.cast_add]
  field_simp

/-! ### Rounding by halfway points -/

theorem not_roundsWithin (hBeyond : format.halfway body < number) :
    ¬ format.RoundsWithin number body :=
  not_or.2 ⟨hBeyond.not_gt, fun hPoint => hBeyond.ne' hPoint.1⟩

theorem nearest_le_iff_roundsWithin (hFraction : 1 ≤ format.fractionBits)
    (hPositive : 0 < denominator) (hFinite : body < format.infinity)
    (hNumber : number = numerator / (denominator * 2 ^ format.scale)) :
    format.nearest numerator denominator ≤ body ↔ format.RoundsWithin number body := by
  have hScale : (0 : ℚ) < 2 ^ format.scale := by positivity
  have hDenominator : (0 : ℚ) < denominator := by exact_mod_cast hPositive
  rw [nearest_le_iff hFraction hPositive hFinite, RoundsWithin, halfway_eq, hNumber,
    div_lt_div_iff₀ (by positivity) (by positivity), div_eq_div_iff (by positivity) (by positivity)]
  generalize format.magnitude body + format.magnitude (body + 1) = total
  have hLeft : (numerator : ℚ) * (2 * 2 ^ format.scale) = 2 * numerator * 2 ^ format.scale := by
    ring
  rw [hLeft, ← mul_assoc, mul_lt_mul_iff_left₀ hScale, mul_left_inj' hScale.ne']
  norm_cast

private theorem nearer_lower_iff {lower upper : ℚ} (hLess : lower < upper) :
    |number - lower| ≤ |number - upper| ↔ number ≤ (lower + upper) / 2 := by
  rw [← sq_le_sq]
  constructor
  · intro hSquares
    nlinarith
  · intro hMiddle
    nlinarith

private theorem nearer_upper_iff {lower upper : ℚ} (hLess : lower < upper) :
    |number - upper| ≤ |number - lower| ↔ (lower + upper) / 2 ≤ number := by
  rw [← sq_le_sq]
  constructor
  · intro hSquares
    nlinarith
  · intro hMiddle
    nlinarith

theorem halfway_le_middle (hLess : body < other) :
    format.halfway body ≤ (format.value body + format.value other) / 2 := by
  have hOther := format.value_strictMono.monotone (Nat.succ_le_of_lt hLess)
  unfold halfway
  linarith

theorem middle_le_halfway (hLe : other ≤ body) :
    (format.value other + format.value (body + 1)) / 2 ≤ format.halfway body := by
  have hOther := format.value_strictMono.monotone hLe
  unfold halfway
  linarith

/-- A body that is separated from the number by no halfway point is the correctly rounded one. -/
theorem rounds_of_le_iff (hNumber : body ≤ format.infinity)
    (hWithin : ∀ bound < format.infinity, body ≤ bound ↔ format.RoundsWithin number bound) :
    format.Rounds number body := by
  have hAbove : ∀ other, body < other → other ≤ format.infinity →
      number ≤ format.halfway body ∧ (number = format.halfway body → body % 2 = 0) := by
    intro other hLess hOther
    rcases (hWithin body (by omega)).1 (Nat.le_refl body) with hFront | hPoint
    · exact ⟨hFront.le, fun hEqual => absurd hEqual hFront.ne⟩
    · exact ⟨hPoint.1.le, fun _ => hPoint.2⟩
  have hBelow : ∀ previous, body = previous + 1 → format.halfway previous ≤ number ∧
      (number = format.halfway previous → body % 2 = 0) := by
    intro previous hBody
    have hBeyond : ¬ format.RoundsWithin number previous := by
      rw [← hWithin previous (by omega), hBody]
      exact Nat.not_succ_le_self previous
    rw [RoundsWithin, not_or, not_lt, not_and] at hBeyond
    refine ⟨hBeyond.1, fun hEqual => ?_⟩
    have hOdd := hBeyond.2 hEqual
    omega
  refine ⟨hNumber, fun other hOther => ?_, fun other hOther hApart hEqual => ?_⟩
  · rcases Nat.lt_trichotomy body other with hLess | rfl | hMore
    · rw [nearer_lower_iff (format.value_strictMono hLess)]
      exact (hAbove other hLess hOther).1.trans (halfway_le_middle hLess)
    · exact le_refl _
    · obtain ⟨previous, rfl⟩ := Nat.exists_eq_add_one.2 (Nat.zero_lt_of_lt hMore)
      rw [nearer_upper_iff (format.value_strictMono hMore)]
      exact (middle_le_halfway (Nat.le_of_lt_succ hMore)).trans (hBelow previous rfl).1
  · rcases Nat.lt_or_gt_of_ne hApart with hMore | hLess
    · obtain ⟨previous, rfl⟩ := Nat.exists_eq_add_one.2 (Nat.zero_lt_of_lt hMore)
      have hMiddle := (nearer_lower_iff (format.value_strictMono hMore)).1 hEqual.le
      refine (hBelow previous rfl).2 (le_antisymm ?_ (hBelow previous rfl).1)
      exact hMiddle.trans (middle_le_halfway (Nat.le_of_lt_succ hMore))
    · have hMiddle := (nearer_upper_iff (format.value_strictMono hLess)).1 hEqual.le
      refine (hAbove other hLess hOther).2 (le_antisymm (hAbove other hLess hOther).1 ?_)
      exact (halfway_le_middle hLess).trans hMiddle

private theorem Rounds.le_of_rounds (hBody : format.Rounds number body)
    (hOther : format.Rounds number other) : other ≤ body := by
  by_contra hLess
  rw [Nat.not_le] at hLess
  have hDistance := le_antisymm (hBody.nearest other hOther.le_infinity)
    (hOther.nearest body hBody.le_infinity)
  have hBodyEven := hBody.even other hOther.le_infinity hLess.ne' hDistance.symm
  have hOtherEven := hOther.even body hBody.le_infinity hLess.ne hDistance
  -- both are even, so a body lies in between and is nearer than either
  have hBetween : body + 1 < other := by omega
  have hMiddle := (nearer_upper_iff (format.value_strictMono hLess)).1 hDistance.ge
  have hNearer := (nearer_lower_iff (format.value_strictMono (Nat.lt_succ_self body))).1
    (hBody.nearest (body + 1) (hBetween.le.trans hOther.le_infinity))
  have hValue := format.value_strictMono hBetween
  linarith

theorem Rounds.unique (hBody : format.Rounds number body) (hOther : format.Rounds number other) :
    body = other :=
  Nat.le_antisymm (hOther.le_of_rounds hBody) (hBody.le_of_rounds hOther)

/-! ### Finite bodies -/

theorem magnitude_infinity (hExponents : format.exponentBits ≠ 0) :
    format.magnitude format.infinity =
      2 ^ (format.fractionBits + (2 ^ format.exponentBits - 2)) := by
  have hTwo : 2 ≤ 2 ^ format.exponentBits := Nat.le_self_pow hExponents 2
  have hSteps : 2 ^ format.exponentBits - 1 = 2 ^ format.exponentBits - 2 + 1 := by omega
  rw [infinity, hSteps, magnitude_powerOfTwo, Nat.pow_add]

theorem value_infinity (hFraction : 1 ≤ format.fractionBits)
    (hExponents : format.exponentBits ≠ 0) :
    format.value format.infinity = 2 ^ 2 ^ (format.exponentBits - 1) := by
  have hScale := two_mul_scale hFraction hExponents
  have hBits : format.fractionBits + (2 ^ format.exponentBits - 2) =
      2 ^ (format.exponentBits - 1) + format.scale := by
    have hTwo : 2 ≤ 2 ^ format.exponentBits := Nat.le_self_pow hExponents 2
    have hHalf : 2 ^ format.exponentBits = 2 * 2 ^ (format.exponentBits - 1) := by
      rw [← Nat.pow_succ', Nat.succ_eq_add_one, Nat.sub_add_cancel (Nat.pos_of_ne_zero hExponents)]
    omega
  rw [value, magnitude_infinity hExponents, hBits, div_eq_iff (by positivity), ← pow_add]
  norm_cast

theorem halfway_zero (hFraction : 1 ≤ format.fractionBits) :
    format.halfway 0 = 1 / 2 ^ (format.scale + 1) := by
  have hHidden : 1 < 2 ^ format.fractionBits := Nat.one_lt_two_pow (by omega)
  rw [halfway_eq, magnitude_of_lt (Nat.two_pow_pos _), magnitude_of_lt hHidden, pow_succ']
  norm_num

end BinaryFormat

namespace Decimal

variable {format : BinaryFormat}

def value (decimal : Decimal) : ℚ := decimal.coefficient * 10 ^ decimal.exponent

private theorem exactBody_le_iff (hFraction : 1 ≤ format.fractionBits) {bound : Nat}
    (hBound : bound < format.infinity) (decimal : Decimal) :
    decimal.exactBody format ≤ bound ↔ format.RoundsWithin decimal.value bound := by
  rcases decimal with ⟨coefficient, exponent⟩
  cases exponent with
  | ofNat power =>
      apply BinaryFormat.nearest_le_iff_roundsWithin hFraction Nat.one_pos hBound
      simp only [value, Int.ofNat_eq_natCast, zpow_natCast]
      push_cast
      field_simp
  | negSucc below =>
      apply BinaryFormat.nearest_le_iff_roundsWithin hFraction (Nat.pow_pos (by omega)) hBound
      simp only [value, zpow_negSucc]
      push_cast
      field_simp

theorem le_value {decimal : Decimal} (hCoefficient : decimal.coefficient ≠ 0) :
    (10 : ℚ) ^ (decimal.exponent + digitCount decimal.coefficient - 1) ≤ decimal.value := by
  obtain ⟨digits, hDigits⟩ := Nat.exists_eq_add_one.2 (digitCount_pos decimal.coefficient)
  have hPower : 10 ^ digits ≤ decimal.coefficient := by
    by_contra hLess
    rw [Nat.not_le] at hLess
    cases digits with
    | zero => omega
    | succ digits =>
        have hCount := (digitCount_le_iff (Nat.succ_pos digits)).2 hLess
        omega
  have hExponent : decimal.exponent + (digitCount decimal.coefficient : Int) - 1 =
      digits + decimal.exponent := by omega
  rw [hExponent, zpow_add₀ (by norm_num), zpow_natCast, value]
  exact mul_le_mul_of_nonneg_right (by exact_mod_cast hPower) (by positivity)

theorem value_lt (decimal : Decimal) :
    decimal.value < (10 : ℚ) ^ (decimal.exponent + digitCount decimal.coefficient) := by
  have hCount := (digitCount_le_iff (digitCount_pos decimal.coefficient)).1 (Nat.le_refl _)
  rw [add_comm, zpow_add₀ (by norm_num), zpow_natCast, value]
  exact mul_lt_mul_of_pos_right (by exact_mod_cast hCount) (by positivity)

private theorem halfway_lt_of_large (hFraction : 2 ≤ format.fractionBits) {bound : Nat}
    (hBound : bound < format.infinity) {decimal : Decimal} (hCoefficient : decimal.coefficient ≠ 0)
    (hLarge : (format.scale : Int) < decimal.exponent + digitCount decimal.coefficient) :
    format.halfway bound < decimal.value := by
  calc
    _ < format.value format.infinity := BinaryFormat.halfway_lt_value hBound
    _ = 2 ^ 2 ^ (format.exponentBits - 1) :=
      BinaryFormat.value_infinity (Nat.le_of_succ_le hFraction)
        (BinaryFormat.exponentBits_ne_zero hBound)
    _ ≤ 2 ^ format.scale := pow_le_pow_right₀ (by norm_num) (by unfold BinaryFormat.scale; omega)
    _ ≤ 10 ^ format.scale := by gcongr; norm_num
    _ = (10 : ℚ) ^ (format.scale : Int) := (zpow_natCast _ _).symm
    _ ≤ (10 : ℚ) ^ (decimal.exponent + digitCount decimal.coefficient - 1) :=
      zpow_le_zpow_right₀ (by norm_num) (by omega)
    _ ≤ decimal.value := le_value hCoefficient

private theorem lt_halfway_of_small (hFraction : 1 ≤ format.fractionBits) (bound : Nat)
    {decimal : Decimal}
    (hSmall : decimal.exponent + digitCount decimal.coefficient < -(format.scale : Int)) :
    decimal.value < format.halfway bound := by
  calc
    _ < (10 : ℚ) ^ (decimal.exponent + digitCount decimal.coefficient) := decimal.value_lt
    _ ≤ (10 : ℚ) ^ (-((format.scale + 1 : Nat) : Int)) :=
      zpow_le_zpow_right₀ (by norm_num) (by omega)
    _ = 1 / 10 ^ (format.scale + 1) := by rw [zpow_neg, zpow_natCast, one_div]
    _ ≤ 1 / 2 ^ (format.scale + 1) := by gcongr; norm_num
    _ = format.halfway 0 := (BinaryFormat.halfway_zero hFraction).symm
    _ ≤ format.halfway bound := format.halfway_mono (Nat.zero_le bound)

/-- A decimal is rounded to a finite body or below it exactly if its value does not pass the
point halfway to the next body. -/
theorem body_le_iff (hFraction : 2 ≤ format.fractionBits) {bound : Nat}
    (hBound : bound < format.infinity) (decimal : Decimal) :
    decimal.body format ≤ bound ↔ format.RoundsWithin decimal.value bound := by
  unfold body
  dsimp only
  split_ifs with hZero hLarge hSmall
  · refine iff_of_true (Nat.zero_le bound) (.inl ?_)
    rw [value, hZero, Nat.cast_zero, zero_mul]
    exact (format.value_nonneg bound).trans_lt (format.value_lt_halfway bound)
  · exact iff_of_false (Nat.not_le.2 hBound)
      (BinaryFormat.not_roundsWithin (halfway_lt_of_large hFraction hBound hZero hLarge))
  · exact iff_of_true (Nat.zero_le bound)
      (.inl (lt_halfway_of_small (Nat.le_of_succ_le hFraction) bound hSmall))
  · exact exactBody_le_iff (Nat.le_of_succ_le hFraction) hBound decimal

theorem body_le_infinity (decimal : Decimal) : decimal.body format ≤ format.infinity := by
  unfold body
  dsimp only
  split_ifs
  · exact Nat.zero_le _
  · exact Nat.le_refl _
  · exact Nat.zero_le _
  · unfold exactBody
    split
    · exact Nat.min_le_right _ _
    · exact Nat.min_le_right _ _

theorem rounds_body (hFraction : 2 ≤ format.fractionBits) (decimal : Decimal) :
    format.Rounds decimal.value (decimal.body format) :=
  BinaryFormat.rounds_of_le_iff decimal.body_le_infinity fun _ hBound =>
    body_le_iff hFraction hBound decimal

theorem body_eq_of_value_eq (hFraction : 2 ≤ format.fractionBits) {decimal other : Decimal}
    (hValue : decimal.value = other.value) : decimal.body format = other.body format := by
  have hRounds := other.rounds_body hFraction
  rw [← hValue] at hRounds
  exact (decimal.rounds_body hFraction).unique hRounds

end Decimal

end AnnotationDefaults
