import AnnotationDefaults.Number.Shortest
import Mathlib.Tactic.Ring
import Mathlib.Data.Nat.Log

set_option autoImplicit false

/-!
What rounding keeps. A finite body is a whole number of units, so a quotient that is
exactly that number rounds to the body itself. From this, the decimal that writes a
body out exactly reads back, and so does every shortest decimal, whichever grid it
came from.
-/

namespace AnnotationDefaults

namespace BinaryFormat

variable {format : BinaryFormat} {body denominator : Nat}

theorem divideToEven_mul (quotient : Nat) (hPositive : 0 < denominator) :
    divideToEven (quotient * denominator) denominator = quotient := by
  unfold divideToEven
  simp only [Nat.mul_mod_left, Nat.mul_div_cancel _ hPositive, Nat.mul_zero, if_pos hPositive]

theorem magnitude_of_lt (hLess : body < 2 ^ format.fractionBits) :
    format.magnitude body = body := by
  simp only [magnitude, if_pos hLess]

theorem magnitude_of_le (hNormal : 2 ^ format.fractionBits ≤ body) :
    format.magnitude body =
      (2 ^ format.fractionBits + body % 2 ^ format.fractionBits) *
        2 ^ (body / 2 ^ format.fractionBits - 1) := by
  simp only [magnitude, if_neg (Nat.not_lt.2 hNormal)]

theorem magnitude_pos (hPositive : 0 < body) : 0 < format.magnitude body := by
  by_cases hLess : body < 2 ^ format.fractionBits
  · rw [magnitude_of_lt hLess]
    exact hPositive
  · rw [magnitude_of_le (Nat.not_lt.1 hLess)]
    exact Nat.mul_pos (Nat.add_pos_left (Nat.two_pow_pos _) _) (Nat.two_pow_pos _)

theorem magnitude_log2 (hNormal : 2 ^ format.fractionBits ≤ body) :
    (format.magnitude body).log2 =
      format.fractionBits + (body / 2 ^ format.fractionBits - 1) := by
  have hHidden := Nat.two_pow_pos format.fractionBits
  have hRest := Nat.mod_lt body hHidden
  have hPositive : format.magnitude body ≠ 0 :=
    (magnitude_pos (hHidden.trans_le hNormal)).ne'
  rw [Nat.log2_eq_iff hPositive, magnitude_of_le hNormal, Nat.pow_succ, Nat.pow_add]
  constructor
  · exact Nat.mul_le_mul_right _ (Nat.le_add_right _ _)
  · rw [Nat.mul_right_comm]
    exact Nat.mul_lt_mul_of_pos_right (by omega) (Nat.two_pow_pos _)

/-- Rounding returns the body whose units the quotient counts. -/
theorem nearest_magnitude (hFinite : body < format.infinity) (hPositive : 0 < denominator) :
    format.nearest (format.magnitude body * denominator) denominator = body := by
  have hHidden := Nat.two_pow_pos format.fractionBits
  unfold nearest droppedBits
  simp only [Nat.mul_div_cancel _ hPositive]
  by_cases hLess : body < 2 ^ format.fractionBits
  · have hDropped : body.log2 - format.fractionBits = 0 := by
      by_cases hZero : body = 0
      · rw [hZero]
        exact Nat.zero_sub _
      · have hBits := (Nat.log2_lt hZero).2 hLess
        omega
    rw [magnitude_of_lt hLess, hDropped, Nat.pow_zero, Nat.mul_one,
      divideToEven_mul _ hPositive, Nat.zero_mul, Nat.add_zero]
    exact Nat.min_eq_left hFinite.le
  · have hNormal := Nat.not_lt.1 hLess
    have hExponent : 1 ≤ body / 2 ^ format.fractionBits := (Nat.one_le_div_iff hHidden).2 hNormal
    have hDropped : (format.magnitude body).log2 - format.fractionBits =
        body / 2 ^ format.fractionBits - 1 := by
      rw [magnitude_log2 hNormal]
      exact Nat.add_sub_cancel_left _ _
    rw [hDropped, magnitude_of_le hNormal, Nat.mul_assoc, Nat.mul_comm (2 ^ _) denominator,
      divideToEven_mul _ (Nat.mul_pos hPositive (Nat.two_pow_pos _))]
    have hBody : 2 ^ format.fractionBits + body % 2 ^ format.fractionBits +
        (body / 2 ^ format.fractionBits - 1) * 2 ^ format.fractionBits = body := by
      calc
        _ = body % 2 ^ format.fractionBits + (body / 2 ^ format.fractionBits - 1 + 1) *
              2 ^ format.fractionBits := by ring
        _ = body := by
            rw [Nat.sub_add_cancel hExponent, Nat.mul_comm, Nat.mod_add_div]
    rw [hBody]
    exact Nat.min_eq_left hFinite.le

theorem two_mul_scale (hFraction : 1 ≤ format.fractionBits) (hExponents : format.exponentBits ≠ 0) :
    2 * format.scale + 4 = 2 ^ format.exponentBits + 2 * format.fractionBits := by
  rcases Nat.exists_eq_succ_of_ne_zero hExponents with ⟨bits, hBits⟩
  have hOne := Nat.two_pow_pos bits
  simp only [scale, hBits, Nat.succ_eq_add_one, Nat.add_sub_cancel, Nat.pow_succ]
  omega

theorem exponentBits_ne_zero (hFinite : body < format.infinity) : format.exponentBits ≠ 0 := by
  intro hZero
  simp [infinity, hZero] at hFinite

theorem magnitude_lt (hFraction : 2 ≤ format.fractionBits) (hFinite : body < format.infinity) :
    format.magnitude body < 2 ^ (2 * format.scale) := by
  have hHidden := Nat.two_pow_pos format.fractionBits
  have hExponents := exponentBits_ne_zero hFinite
  have hScale := two_mul_scale (Nat.le_of_succ_le hFraction) hExponents
  have hTwo : 2 ≤ 2 ^ format.exponentBits := Nat.le_self_pow hExponents 2
  by_cases hLess : body < 2 ^ format.fractionBits
  · rw [magnitude_of_lt hLess]
    exact hLess.trans_le (Nat.pow_le_pow_right (by omega) (by omega))
  · have hNormal := Nat.not_lt.1 hLess
    have hExponent : body / 2 ^ format.fractionBits < 2 ^ format.exponentBits - 1 :=
      (Nat.div_lt_iff_lt_mul hHidden).2 hFinite
    have hOne : 1 ≤ body / 2 ^ format.fractionBits := (Nat.one_le_div_iff hHidden).2 hNormal
    have hLog := magnitude_log2 hNormal
    have hPositive : 0 < format.magnitude body := magnitude_pos (hHidden.trans_le hNormal)
    rw [← Nat.log2_lt hPositive.ne', hLog]
    omega

end BinaryFormat

namespace Decimal

variable {format : BinaryFormat}

/-! ### Digit counts -/

theorem digitCount_pos (value : Nat) : 0 < digitCount value :=
  Nat.length_toDigits_pos

theorem digitCount_le_iff {value count : Nat} (hCount : 0 < count) :
    digitCount value ≤ count ↔ value < 10 ^ count :=
  Nat.length_toDigits_le_iff (by omega) hCount

/-! ### Bodies of decimals -/

theorem exactOf_body (hFraction : 2 ≤ format.fractionBits) {bits : Nat} (hPositive : 0 < bits)
    (hFinite : bits < format.infinity) : (exactOf format bits).body format = bits := by
  have hMagnitude : 0 < format.magnitude bits := BinaryFormat.magnitude_pos hPositive
  obtain ⟨scale, hScale⟩ : ∃ scale, format.scale = scale + 1 := by
    have hOne := Nat.two_pow_pos (format.exponentBits - 1)
    simp only [BinaryFormat.scale]
    exact ⟨2 ^ (format.exponentBits - 1) + format.fractionBits - 3, by omega⟩
  have hCoefficient : format.magnitude bits * 5 ^ format.scale ≠ 0 :=
    (Nat.mul_pos hMagnitude (Nat.pow_pos (by omega))).ne'
  have hDigits : digitCount (format.magnitude bits * 5 ^ format.scale) ≤ 2 * format.scale := by
    rw [digitCount_le_iff (by omega)]
    calc
      _ < 2 ^ (2 * format.scale) * 5 ^ format.scale :=
        Nat.mul_lt_mul_of_pos_right (BinaryFormat.magnitude_lt hFraction hFinite)
          (Nat.pow_pos (by omega))
      _ ≤ 2 ^ (2 * format.scale) * 5 ^ (2 * format.scale) :=
        Nat.mul_le_mul_left _ (Nat.pow_le_pow_right (by omega) (by omega))
      _ = 10 ^ (2 * format.scale) := by rw [← Nat.mul_pow]
  have hOneDigit := digitCount_pos (format.magnitude bits * 5 ^ format.scale)
  have hExact : (exactOf format bits).exactBody format = bits := by
    have hExponent : -(format.scale : Int) = .negSucc scale := by
      rw [hScale]
      rfl
    rw [exactOf, hExponent]
    change format.nearest (format.magnitude bits * 5 ^ format.scale * 2 ^ format.scale)
      (10 ^ (scale + 1)) = bits
    rw [Nat.mul_assoc, ← Nat.mul_pow, ← hScale]
    exact BinaryFormat.nearest_magnitude hFinite (Nat.pow_pos (by omega))
  have hNotAbove : ¬ (format.scale : Int) < -(format.scale : Int) +
      digitCount (format.magnitude bits * 5 ^ format.scale) := by omega
  have hNotBelow : ¬ -(format.scale : Int) + digitCount (format.magnitude bits * 5 ^ format.scale) <
      -(format.scale : Int) := by omega
  simp only [body, exactOf, hCoefficient, hNotAbove, hNotBelow, if_false]
  exact hExact

theorem onGrid?_body {tie : DecimalTie} {bits : Nat} {leading : Int} {digits : Nat}
    {value : Decimal} (hFound : onGrid? tie format bits leading digits = some value) :
    value.body format = bits := by
  rcases hRatio : scaledRatio format bits (leading - digits + 1) with ⟨numerator, denominator⟩
  simp only [onGrid?, hRatio] at hFound
  generalize ofGrid digits (numerator / denominator) (leading - digits + 1) = lower at hFound
  generalize ofGrid digits (numerator / denominator + 1) (leading - digits + 1) = upper at hFound
  cases hLower : lower.body format == bits with
  | false =>
      cases hUpper : upper.body format == bits with
      | false => simp [hLower, hUpper] at hFound
      | true =>
          simp only [hLower, hUpper, Option.some.injEq] at hFound
          exact hFound ▸ eq_of_beq hUpper
  | true =>
      cases hUpper : upper.body format == bits with
      | false =>
          simp only [hLower, hUpper, Option.some.injEq] at hFound
          exact hFound ▸ eq_of_beq hLower
      | true =>
          simp only [hLower, hUpper, Option.some.injEq] at hFound
          rw [← hFound, apply_ite (body format), eq_of_beq hUpper, eq_of_beq hLower, ite_self]

/-- The shortest decimal of a finite body reads back as that body. -/
theorem shortest_body (tie : DecimalTie) (hFraction : 2 ≤ format.fractionBits) {bits : Nat}
    (hFinite : bits < format.infinity) : (shortest tie format bits).body format = bits := by
  unfold shortest
  by_cases hZero : bits = 0
  · rw [if_pos hZero, hZero]
    simp only [body, if_true]
  · rw [if_neg hZero]
    dsimp only
    cases hFound : ((List.range (digitLimit format)).map (· + 1)).findSome?
        (onGrid? tie format bits (leadingExponent format bits)) with
    | none => exact exactOf_body hFraction (Nat.pos_of_ne_zero hZero) hFinite
    | some value =>
        rcases List.exists_of_findSome?_eq_some hFound with ⟨digits, -, hGrid⟩
        exact onGrid?_body hGrid

end Decimal

end AnnotationDefaults
