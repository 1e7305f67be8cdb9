import AnnotationDefaults.Proofs.Json.Numerals

set_option autoImplicit false

/-!
Numbers as a document holds them. The number of a literal has a text of its own, which a
floating-point token reads as a decimal under the sign of the literal: the same decimal if the
number is an integer, and otherwise the shortest one of a double, which is always finite.
-/

namespace AnnotationDefaults.Json

namespace Number

def decimal : Number → Decimal
  | .integer value => ⟨value.natAbs, 0⟩
  | .double bits => Decimal.shortest numberLayout.tie .double (BinaryFormat.double.body bits)

variable {literal : NumberLiteral} {number : Number} {format : BinaryFormat}

/-! ### Finite doubles -/

theorem magnitude_twoPow (power : Nat) :
    BinaryFormat.double.magnitude ((1022 + power + 1) * 2 ^ 52) =
      2 ^ (power + BinaryFormat.double.scale) := by
  have hMagnitude := BinaryFormat.double.magnitude_powerOfTwo (1022 + power)
  have hBits : power + BinaryFormat.double.scale =
      BinaryFormat.double.fractionBits + (1022 + power) := by
    have hFraction : BinaryFormat.double.fractionBits = 52 := rfl
    have hScale : BinaryFormat.double.scale = 1074 := by decide
    omega
  rw [hBits, Nat.pow_add]
  exact hMagnitude

theorem le_powerOfTen (power : Nat) : 2 ^ BinaryFormat.double.scale ≤ powerOfTen power := by
  have hOne := magnitude_twoPow 0
  rw [Nat.zero_add BinaryFormat.double.scale] at hOne
  rw [← hOne, powerOfTen, BinaryFormat.magnitude_le_iff]
  apply BinaryFormat.le_nearest_of_le (by decide) Nat.one_pos (by decide)
  rw [hOne, Nat.mul_one]
  exact Nat.le_mul_of_pos_left _ (Nat.pow_pos (by omega))

theorem scaleDown_le {body : Nat} (hFinite : body < BinaryFormat.double.infinity) (power : Nat) :
    scaleDown body power ≤ body :=
  BinaryFormat.nearest_le_of_le (by decide)
    ((Nat.two_pow_pos _).trans_le (le_powerOfTen power)) hFinite
    (Nat.mul_le_mul_left _ (le_powerOfTen power))

private theorem start_lt_infinity {significand : Nat} (hSignificand : significand < UInt64.size) :
    BinaryFormat.double.nearest (significand * 2 ^ BinaryFormat.double.scale) 1 <
      BinaryFormat.double.infinity := by
  have hFinite : (1022 + 64 + 1) * 2 ^ 52 < BinaryFormat.double.infinity := by decide
  refine (BinaryFormat.nearest_le_of_le (by decide) Nat.one_pos hFinite ?_).trans_lt hFinite
  calc
    _ ≤ 2 ^ 64 * 2 ^ BinaryFormat.double.scale := Nat.mul_le_mul_right _ hSignificand.le
    _ = 2 ^ (64 + BinaryFormat.double.scale) := (Nat.pow_add 2 64 _).symm
    _ = BinaryFormat.double.magnitude ((1022 + 64 + 1) * 2 ^ 52) := (magnitude_twoPow 64).symm
    _ = _ := (Nat.mul_one _).symm

theorem scaled?_lt_infinity {significand body : Nat} {power : Int}
    (hSignificand : significand < UInt64.size) (hBody : scaled? significand power = some body) :
    body < BinaryFormat.double.infinity := by
  have hStart := start_lt_infinity hSignificand
  unfold scaled? at hBody
  dsimp only at hBody
  split at hBody
  · cases hBody
    decide
  split at hBody
  · split at hBody
    · cases hBody
    split at hBody
    · cases hBody
    · rename_i hInfinity
      cases hBody
      exact Nat.lt_of_le_of_ne (Nat.min_le_right _ _) hInfinity
  · split at hBody
    · cases hBody
      exact (scaleDown_le hStart _).trans_lt hStart
    split at hBody
    · cases hBody
      have hFirst := (scaleDown_le hStart greatestPower).trans_lt hStart
      exact (scaleDown_le hFirst _).trans_lt hFirst
    · cases hBody
      decide

theorem foldSignificand_lt {significand : Nat} (digits : List Nat)
    (hSignificand : significand < UInt64.size) :
    (foldSignificand significand digits).1 < UInt64.size := by
  induction digits generalizing significand with
  | nil => exact hSignificand
  | cons digit digits ih =>
      rw [foldSignificand]
      split
      · rename_i hFits
        exact ih hFits
      · exact hSignificand

theorem double?_eq_some (hNumber : double? literal = some number) :
    ∃ body < BinaryFormat.double.infinity,
      number = .double (BinaryFormat.double.withSign literal.negative body) := by
  obtain ⟨body, hBody, rfl⟩ := Option.map_eq_some_iff.1 hNumber
  refine ⟨body, scaled?_lt_infinity ?_ hBody, rfl⟩
  exact foldSignificand_lt _ (foldSignificand_lt _ (by decide))

/-! ### Numbers of literals -/

theorem decimal_ofSign (negative : Bool) (magnitude : Nat) :
    decimal (.integer (Integer.ofSign negative magnitude)) = ⟨magnitude, 0⟩ := by
  rw [decimal, Integer.ofSign]
  split
  · rw [Int.natAbs_neg, Int.natAbs_natCast]
  · rw [Int.natAbs_natCast]

theorem ofLiteral?_eq_some (hNumber : ofLiteral? literal = some number) :
    (number = .integer (Integer.ofSign literal.negative (Decimal.ofDigits literal.whole)) ∧
      (literal.negative = true → 0 < Decimal.ofDigits literal.whole) ∧
      literal.fraction = none ∧ literal.power = none) ∨ double? literal = some number := by
  unfold ofLiteral? at hNumber
  dsimp only at hNumber
  split at hNumber
  · rename_i hPlain
    rw [Bool.and_eq_true, Option.isNone_iff_eq_none, Option.isNone_iff_eq_none] at hPlain
    split at hNumber
    · rename_i hNegative
      split at hNumber
      · rename_i hRange
        cases hNumber
        refine .inl ⟨?_, fun _ => hRange.1, hPlain⟩
        rw [hNegative]
        rfl
      · exact .inr hNumber
    · rename_i hPositive
      split at hNumber
      · cases hNumber
        refine .inl ⟨?_, fun hNegative => absurd hNegative hPositive, hPlain⟩
        rw [Bool.not_eq_true] at hPositive
        rw [hPositive]
        rfl
      · exact .inr hNumber
  · exact .inr hNumber

theorem read_render_ofSign {negative : Bool} {magnitude : Nat}
    (hPositive : negative = true → 0 < magnitude) :
    FloatToken.read format (Integer.render (Integer.ofSign negative magnitude)) =
      .ok (format.withSign negative (Decimal.body format ⟨magnitude, 0⟩)) := by
  have hRead : Decimal.read? (Nat.toDigits 10 magnitude) = some ⟨magnitude, 0⟩ := by
    rw [Decimal.read?_digits Nat.toDigits_ne_nil (Integer.toDigits_all_isDigit magnitude),
      Nat.ofDigitChars_toDigits (by omega) (by omega)]
  have hBody : FloatToken.readBody? format (Nat.toDigits 10 magnitude) =
      some (Decimal.body format ⟨magnitude, 0⟩) := by
    rw [FloatToken.readBody?, hRead]
  have hText : Integer.render (Integer.ofSign negative magnitude) =
      String.ofList ((if negative then ['-'] else []) ++ Nat.toDigits 10 magnitude) := by
    cases negative with
    | false => rfl
    | true =>
        obtain ⟨below, rfl⟩ := Nat.exists_eq_add_one.2 (hPositive rfl)
        rfl
  rw [hText]
  exact FloatToken.read_signed negative (Decimal.exists_unsigned_of_read? hRead) hBody

/-- The text of a literal's number is read as the body of its decimal behind the sign of the
literal. -/
theorem read_text (hNumber : ofLiteral? literal = some number)
    (hFraction : 2 ≤ format.fractionBits) :
    FloatToken.read format number.text =
      .ok (format.withSign literal.negative (number.decimal.body format)) := by
  rcases ofLiteral?_eq_some hNumber with ⟨rfl, hPositive, -⟩ | hDouble
  · rw [decimal_ofSign]
    exact read_render_ofSign hPositive
  · obtain ⟨body, hFinite, rfl⟩ := double?_eq_some hDouble
    have hBody := hFinite.trans (FloatToken.infinity_lt_signWeight _)
    rw [← FloatToken.body_withSign literal.negative hBody] at hFinite
    have hRead := FloatToken.read_text_of_finite numberLayout hFraction hFinite
    rwa [FloatToken.isNegative_withSign literal.negative hBody] at hRead

end Number

end AnnotationDefaults.Json
