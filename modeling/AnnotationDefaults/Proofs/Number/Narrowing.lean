import AnnotationDefaults.Proofs.Number.Value

set_option autoImplicit false

/-!
Rounding first to a wide format and then to a narrow one. Halfway points of the narrow format
are bodies of the wide one, so numbers that share a wide body lie on the same side of all of
them but one, the number that their wide body denotes.
-/

namespace AnnotationDefaults

namespace BinaryFormat

variable {narrow wide : BinaryFormat} {bound : Nat}

/-- The wide format has more of everything that the narrow one has. -/
structure Refines (wide narrow : BinaryFormat) : Prop where
  two_le_fraction : 2 ≤ narrow.fractionBits
  fraction_lt : narrow.fractionBits < wide.fractionBits
  exponent_le : narrow.exponentBits ≤ wide.exponentBits

theorem double_refines_single : double.Refines single where
  two_le_fraction := by decide
  fraction_lt := by decide
  exponent_le := by decide

namespace Refines

theorem scale_lt (hRefines : wide.Refines narrow) : narrow.scale < wide.scale := by
  have hFraction := hRefines.two_le_fraction
  have hMore := hRefines.fraction_lt
  have hOne := Nat.two_pow_pos (narrow.exponentBits - 1)
  have hPower : 2 ^ (narrow.exponentBits - 1) ≤ 2 ^ (wide.exponentBits - 1) :=
    Nat.pow_le_pow_right (by omega) (Nat.sub_le_sub_right hRefines.exponent_le 1)
  unfold scale
  omega

theorem value_infinity_le (hRefines : wide.Refines narrow) (hExponents : narrow.exponentBits ≠ 0) :
    narrow.value narrow.infinity ≤ wide.value wide.infinity := by
  have hFraction := hRefines.two_le_fraction
  have hMore := hRefines.fraction_lt
  have hLe := hRefines.exponent_le
  rw [value_infinity (by omega) hExponents, value_infinity (by omega) (by omega)]
  apply pow_le_pow_right₀ (by norm_num)
  exact Nat.pow_le_pow_right (by omega) (Nat.sub_le_sub_right hLe 1)

/-- A halfway point takes one bit more than the bodies around it. -/
theorem exists_value_eq_halfway (hRefines : wide.Refines narrow)
    (hBound : bound < narrow.infinity) :
    ∃ body < wide.infinity, wide.value body = narrow.halfway bound := by
  obtain ⟨significand, steps, hSignificand, hBody, hNext⟩ := narrow.exists_magnitude_succ bound
  obtain ⟨more, hMore⟩ := Nat.exists_eq_add_of_lt hRefines.scale_lt
  have hHidden : 2 * 2 ^ narrow.fractionBits ≤ 2 ^ wide.fractionBits := by
    rw [← Nat.pow_succ']
    exact Nat.pow_le_pow_right (by omega) hRefines.fraction_lt
  obtain ⟨body, hMagnitude⟩ :=
    wide.exists_magnitude_eq (2 * significand + 1) (steps + more) (by omega)
  have hValue : wide.value body = narrow.halfway bound := by
    rw [halfway_eq, value, hMagnitude, hBody, hNext, hMore]
    push_cast
    field_simp
    ring
  refine ⟨body, ?_, hValue⟩
  rw [← wide.value_strictMono.lt_iff_lt, hValue]
  exact (halfway_lt_value hBound).trans_le
    (hRefines.value_infinity_le (exponentBits_ne_zero hBound))

end Refines

end BinaryFormat

namespace Decimal

open BinaryFormat

variable {format narrow wide : BinaryFormat} {decimal other : Decimal} {body bound : Nat}

theorem body_le_of_value_le (hFraction : 2 ≤ format.fractionBits) (hFinite : body < format.infinity)
    (hValue : decimal.value ≤ format.value body) : decimal.body format ≤ body := by
  rw [body_le_iff hFraction hFinite]
  exact .inl (hValue.trans_lt (format.value_lt_halfway body))

theorem le_body_of_le_value (hFraction : 2 ≤ format.fractionBits) (hFinite : body < format.infinity)
    (hValue : format.value body ≤ decimal.value) : body ≤ decimal.body format := by
  cases body with
  | zero => exact Nat.zero_le _
  | succ previous =>
      have hBeyond := (halfway_lt_value (Nat.lt_succ_self previous)).trans_le hValue
      refine Nat.not_le.1 fun hLe => not_roundsWithin hBeyond ?_
      exact (body_le_iff hFraction (Nat.lt_of_succ_lt hFinite) decimal).1 hLe

theorem roundsWithin_iff_body_lt (hRefines : wide.Refines narrow)
    (hFinite : body < wide.infinity) (hHalfway : wide.value body = narrow.halfway bound)
    (hApart : decimal.body wide ≠ body) :
    narrow.RoundsWithin decimal.value bound ↔ decimal.body wide < body := by
  have hFraction : 2 ≤ wide.fractionBits :=
    hRefines.two_le_fraction.trans hRefines.fraction_lt.le
  unfold RoundsWithin
  rw [← hHalfway]
  constructor
  · rintro (hFront | hPoint)
    · exact Nat.lt_of_le_of_ne (body_le_of_value_le hFraction hFinite hFront.le) hApart
    · exact Nat.lt_of_le_of_ne (body_le_of_value_le hFraction hFinite hPoint.1.le) hApart
  · intro hLess
    refine .inl (not_le.1 fun hValue => ?_)
    exact Nat.not_le.2 hLess (le_body_of_le_value hFraction hFinite hValue)

/-- Decimals of one wide body have one narrow body exactly if the halfway point that the wide
body may be does not lie between them. -/
theorem body_eq_iff_of_refines (hRefines : wide.Refines narrow)
    (hWide : decimal.body wide = other.body wide) :
    decimal.body narrow = other.body narrow ↔
      ∀ bound < narrow.infinity, narrow.halfway bound = wide.value (decimal.body wide) →
        (narrow.RoundsWithin decimal.value bound ↔ narrow.RoundsWithin other.value bound) := by
  have hFraction := hRefines.two_le_fraction
  constructor
  · intro hNarrow bound hBound _
    rw [← body_le_iff hFraction hBound, ← body_le_iff hFraction hBound, hNarrow]
  · intro hSides
    have hWithin : ∀ bound < narrow.infinity,
        (decimal.body narrow ≤ bound ↔ other.body narrow ≤ bound) := by
      intro bound hBound
      rw [body_le_iff hFraction hBound, body_le_iff hFraction hBound]
      by_cases hPoint : narrow.halfway bound = wide.value (decimal.body wide)
      · exact hSides bound hBound hPoint
      · obtain ⟨body, hFinite, hBody⟩ := hRefines.exists_value_eq_halfway hBound
        have hApart : decimal.body wide ≠ body := by
          rintro rfl
          exact hPoint hBody.symm
        rw [roundsWithin_iff_body_lt hRefines hFinite hBody hApart,
          roundsWithin_iff_body_lt hRefines hFinite hBody (hWide ▸ hApart), hWide]
    have hRounds : narrow.Rounds decimal.value (other.body narrow) := by
      refine rounds_of_le_iff other.body_le_infinity fun bound hBound => ?_
      rw [← hWithin bound hBound, body_le_iff hFraction hBound]
    exact (decimal.rounds_body hFraction).unique hRounds

end Decimal

end AnnotationDefaults
