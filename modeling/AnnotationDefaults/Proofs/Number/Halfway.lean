import AnnotationDefaults.Proofs.Number.Rounding

set_option autoImplicit false

/-!
Where rounding turns over. Magnitudes grow with the body, by one power of two as long as the
exponent stays, and a quotient is rounded to a body or below it exactly if it does not pass the
point halfway to the next body; the point itself goes to the even one of the two. A number of
units whose significant bits fit the format is the magnitude of a body.
-/

namespace AnnotationDefaults.BinaryFormat

variable {format : BinaryFormat} {body other numerator denominator : Nat}

/-! ### Magnitudes in order -/

/-- A body between two powers of two, both included, where magnitudes are `2 ^ steps` apart. -/
structure InStretch (format : BinaryFormat) (steps body : Nat) : Prop where
  low : steps = 0 ∨ (steps + 1) * 2 ^ format.fractionBits ≤ body
  high : body ≤ (steps + 2) * 2 ^ format.fractionBits

theorem InStretch.start_le {steps : Nat} (hStretch : format.InStretch steps body) :
    steps * 2 ^ format.fractionBits ≤ body := by
  rcases hStretch.low with rfl | hLow
  · rw [Nat.zero_mul]
    exact Nat.zero_le body
  · exact (Nat.mul_le_mul_right _ (Nat.le_succ steps)).trans hLow

theorem InStretch.succ {steps : Nat} (hStretch : format.InStretch steps body)
    (hLess : body < (steps + 2) * 2 ^ format.fractionBits) : format.InStretch steps (body + 1) where
  low := hStretch.low.imp_right fun hLow => hLow.trans (Nat.le_succ body)
  high := hLess

theorem InStretch.magnitude_eq {steps : Nat} (hStretch : format.InStretch steps body) :
    format.magnitude body = (body - steps * 2 ^ format.fractionBits) * 2 ^ steps := by
  have hHidden := Nat.two_pow_pos format.fractionBits
  by_cases hLess : body < 2 ^ format.fractionBits
  · have hSteps : steps = 0 := by
      refine hStretch.low.resolve_right fun hLow => ?_
      have hOne := Nat.le_mul_of_pos_left (2 ^ format.fractionBits) (Nat.succ_pos steps)
      exact absurd (hOne.trans hLow) (Nat.not_le.2 hLess)
    rw [magnitude_of_lt hLess, hSteps, Nat.zero_mul, Nat.sub_zero, Nat.pow_zero, Nat.mul_one]
  · have hNormal := Nat.not_lt.1 hLess
    have hLower : (steps + 1) * 2 ^ format.fractionBits ≤ body := by
      refine hStretch.low.elim (fun hSteps => ?_) id
      rw [hSteps, Nat.zero_add, Nat.one_mul]
      exact hNormal
    rw [magnitude_of_le hNormal]
    -- the last body of a stretch already has the next exponent
    rcases Nat.lt_or_eq_of_le hStretch.high with hBelow | hTop
    · have hExponent : body / 2 ^ format.fractionBits = steps + 1 :=
        Nat.div_eq_of_lt_le hLower hBelow
      have hRest := Nat.div_add_mod body (2 ^ format.fractionBits)
      rw [hExponent, Nat.mul_comm, Nat.add_mul, Nat.one_mul] at hRest
      rw [hExponent, Nat.add_sub_cancel]
      congr 1
      omega
    · rw [hTop, Nat.mul_mod_left, Nat.mul_div_cancel _ hHidden, Nat.add_zero, ← Nat.sub_mul,
        Nat.add_sub_cancel_left, Nat.add_sub_assoc (by omega), Nat.pow_succ]
      ring

theorem InStretch.magnitude_succ_eq {steps : Nat} (hStretch : format.InStretch steps body)
    (hLess : body < (steps + 2) * 2 ^ format.fractionBits) :
    format.magnitude (body + 1) = (body - steps * 2 ^ format.fractionBits + 1) * 2 ^ steps := by
  rw [(hStretch.succ hLess).magnitude_eq, Nat.sub_add_comm hStretch.start_le]

/-- Every body has a stretch that holds the next body too. -/
theorem exists_inStretch (format : BinaryFormat) (body : Nat) :
    ∃ steps, format.InStretch steps body ∧ body < (steps + 2) * 2 ^ format.fractionBits := by
  have hHidden := Nat.two_pow_pos format.fractionBits
  have hLower := Nat.div_mul_le_self body (2 ^ format.fractionBits)
  have hUpper := Nat.lt_div_mul_add (a := body) hHidden
  cases hExponent : body / 2 ^ format.fractionBits with
  | zero =>
      rw [hExponent] at hUpper
      exact ⟨0, ⟨.inl rfl, by omega⟩, by omega⟩
  | succ steps =>
      rw [hExponent] at hUpper hLower
      rw [Nat.add_mul steps 1] at hUpper
      have hLess : body < (steps + 2) * 2 ^ format.fractionBits := by
        rw [Nat.add_mul steps 2]
        omega
      exact ⟨steps, ⟨.inr hLower, hLess.le⟩, hLess⟩

theorem exists_magnitude_succ (format : BinaryFormat) (body : Nat) :
    ∃ significand steps, significand < 2 * 2 ^ format.fractionBits ∧
      format.magnitude body = significand * 2 ^ steps ∧
      format.magnitude (body + 1) = (significand + 1) * 2 ^ steps := by
  obtain ⟨steps, hStretch, hLess⟩ := format.exists_inStretch body
  refine ⟨body - steps * 2 ^ format.fractionBits, steps, ?_, hStretch.magnitude_eq,
    hStretch.magnitude_succ_eq hLess⟩
  have hStart := hStretch.start_le
  rw [Nat.add_mul steps 2] at hLess
  omega

theorem magnitude_lt_succ (format : BinaryFormat) (body : Nat) :
    format.magnitude body < format.magnitude (body + 1) := by
  obtain ⟨significand, steps, -, hBody, hNext⟩ := format.exists_magnitude_succ body
  rw [hBody, hNext]
  exact Nat.mul_lt_mul_of_pos_right (Nat.lt_succ_self _) (Nat.two_pow_pos steps)

theorem magnitude_strictMono (format : BinaryFormat) : StrictMono format.magnitude :=
  strictMono_nat_of_lt_succ format.magnitude_lt_succ

theorem magnitude_le_iff : format.magnitude body ≤ format.magnitude other ↔ body ≤ other :=
  format.magnitude_strictMono.le_iff_le

/-- A number of units whose significant bits fit the format is the magnitude of a body. -/
theorem exists_magnitude_eq (format : BinaryFormat) (significand power : Nat)
    (hFits : significand < 2 * 2 ^ format.fractionBits) :
    ∃ body, format.magnitude body = significand * 2 ^ power := by
  induction power generalizing significand with
  | zero =>
      have hStretch : format.InStretch 0 significand := ⟨.inl rfl, by omega⟩
      refine ⟨significand, ?_⟩
      rw [hStretch.magnitude_eq, Nat.zero_mul, Nat.sub_zero]
  | succ power ih =>
      by_cases hLess : significand < 2 ^ format.fractionBits
      · obtain ⟨body, hBody⟩ := ih (significand * 2) (by omega)
        refine ⟨body, ?_⟩
        rw [hBody, Nat.pow_succ]
        ring
      · have hStretch : format.InStretch (power + 1)
            (significand + (power + 1) * 2 ^ format.fractionBits) := by
          constructor
          · rw [Nat.add_mul (power + 1) 1]
            omega
          · rw [Nat.add_mul (power + 1) 2]
            omega
        refine ⟨significand + (power + 1) * 2 ^ format.fractionBits, ?_⟩
        rw [hStretch.magnitude_eq, Nat.add_sub_cancel]

theorem magnitude_powerOfTwo (format : BinaryFormat) (steps : Nat) :
    format.magnitude ((steps + 1) * 2 ^ format.fractionBits) =
      2 ^ format.fractionBits * 2 ^ steps := by
  have hStretch : format.InStretch steps ((steps + 1) * 2 ^ format.fractionBits) :=
    ⟨.inr (Nat.le_refl _), Nat.mul_le_mul_right _ (by omega)⟩
  rw [hStretch.magnitude_eq, ← Nat.sub_mul, Nat.add_sub_cancel_left, Nat.one_mul]

/-! ### The point halfway to the next body -/

/-- A quotient is rounded to a natural or below it exactly if it does not pass the point
halfway to the next natural; that point itself goes to the even one. -/
theorem divideToEven_le_iff {bound : Nat} (hPositive : 0 < denominator) :
    divideToEven numerator denominator ≤ bound ↔
      2 * numerator < (2 * bound + 1) * denominator ∨
        2 * numerator = (2 * bound + 1) * denominator ∧ bound % 2 = 0 := by
  have hSplit := Nat.div_add_mod numerator denominator
  have hRest := Nat.mod_lt numerator hPositive
  unfold divideToEven
  generalize numerator / denominator = quotient at hSplit
  generalize numerator % denominator = rest at hSplit hRest
  dsimp only
  rcases Nat.lt_trichotomy quotient bound with hLess | rfl | hMore
  · have hNext : denominator * (quotient + 1) ≤ bound * denominator := by
      rw [Nat.mul_comm]
      exact Nat.mul_le_mul_right _ hLess
    rw [Nat.mul_add] at hNext
    rw [Nat.add_mul, Nat.mul_assoc]
    split_ifs <;> omega
  · rw [Nat.add_mul, Nat.mul_assoc, Nat.mul_comm quotient]
    split_ifs <;> omega
  · have hNext : denominator * (bound + 1) ≤ denominator * quotient :=
      Nat.mul_le_mul_left _ hMore
    rw [Nat.mul_add] at hNext
    rw [Nat.add_mul, Nat.mul_assoc, Nat.mul_comm bound]
    split_ifs <;> omega

theorem divideToEven_le {bound : Nat} (hPositive : 0 < denominator)
    (hNumerator : numerator ≤ bound * denominator) :
    divideToEven numerator denominator ≤ bound := by
  rw [divideToEven_le_iff hPositive, Nat.add_mul, Nat.mul_assoc]
  omega

theorem le_divideToEven {bound : Nat} (hPositive : 0 < denominator)
    (hNumerator : bound * denominator ≤ numerator) :
    bound ≤ divideToEven numerator denominator := by
  cases bound with
  | zero => exact Nat.zero_le _
  | succ bound =>
      rw [Nat.add_mul] at hNumerator
      refine Nat.not_le.1 fun hLe => ?_
      rw [divideToEven_le_iff hPositive, Nat.add_mul, Nat.mul_assoc] at hLe
      omega

theorem lt_droppedBits (format : BinaryFormat) (numerator : Nat) (hPositive : 0 < denominator) :
    numerator < 2 * 2 ^ format.fractionBits * 2 ^ format.droppedBits numerator denominator *
      denominator := by
  have hLog : numerator / denominator < 2 ^ ((numerator / denominator).log2 + 1) :=
    Nat.lt_log2_self
  have hPower : 2 ^ ((numerator / denominator).log2 + 1) ≤
      2 * 2 ^ format.fractionBits * 2 ^ format.droppedBits numerator denominator := by
    rw [← Nat.pow_succ', ← Nat.pow_add]
    exact Nat.pow_le_pow_right (by omega) (by unfold droppedBits; omega)
  rw [← Nat.div_lt_iff_lt_mul hPositive]
  exact hLog.trans_le hPower

theorem droppedBits_le (format : BinaryFormat) (numerator denominator : Nat) :
    format.droppedBits numerator denominator = 0 ∨
      2 ^ format.fractionBits * 2 ^ format.droppedBits numerator denominator * denominator ≤
        numerator := by
  refine or_iff_not_imp_left.2 fun hDropped => ?_
  have hQuotient : numerator / denominator ≠ 0 := by
    intro hZero
    rw [droppedBits, hZero, Nat.log2_zero, Nat.zero_sub] at hDropped
    exact hDropped rfl
  have hLog := Nat.log2_self_le hQuotient
  have hBits : format.fractionBits + format.droppedBits numerator denominator =
      (numerator / denominator).log2 := by
    unfold droppedBits at hDropped ⊢
    omega
  rw [← Nat.pow_add, hBits]
  exact (Nat.mul_le_mul_right _ hLog).trans (Nat.div_mul_le_self _ _)

private theorem carried_le_iff {dropped : Nat} (hFraction : 1 ≤ format.fractionBits)
    (hPositive : 0 < denominator) (hStretch : format.InStretch dropped body)
    (hLess : body < (dropped + 2) * 2 ^ format.fractionBits) :
    divideToEven numerator (denominator * 2 ^ dropped) + dropped * 2 ^ format.fractionBits ≤
        body ↔
      2 * numerator < (format.magnitude body + format.magnitude (body + 1)) * denominator ∨
        2 * numerator = (format.magnitude body + format.magnitude (body + 1)) * denominator ∧
          body % 2 = 0 := by
  have hScaled : 0 < denominator * 2 ^ dropped := Nat.mul_pos hPositive (Nat.two_pow_pos _)
  have hStart := hStretch.start_le
  have hParity : (body - dropped * 2 ^ format.fractionBits) % 2 = body % 2 := by
    have hEven : 2 ^ format.fractionBits % 2 = 0 :=
      Nat.mod_eq_zero_of_dvd (dvd_pow_self 2 (Nat.pos_iff_ne_zero.1 hFraction))
    have hDropped : dropped * 2 ^ format.fractionBits % 2 = 0 := by
      rw [Nat.mul_mod, hEven, Nat.mul_zero, Nat.zero_mod]
    omega
  have hSum : (format.magnitude body + format.magnitude (body + 1)) * denominator =
      (2 * (body - dropped * 2 ^ format.fractionBits) + 1) * (denominator * 2 ^ dropped) := by
    rw [hStretch.magnitude_eq, hStretch.magnitude_succ_eq hLess]
    ring
  rw [← Nat.le_sub_iff_add_le hStart, divideToEven_le_iff hScaled, hParity, hSum]

private theorem lt_carried {dropped : Nat} (hPositive : 0 < denominator)
    (hSmall : body < (dropped + 1) * 2 ^ format.fractionBits)
    (hLower : 2 ^ format.fractionBits * 2 ^ dropped * denominator ≤ numerator) :
    body < divideToEven numerator (denominator * 2 ^ dropped) +
        dropped * 2 ^ format.fractionBits ∧
      (format.magnitude body + format.magnitude (body + 1)) * denominator < 2 * numerator := by
  have hSignificand : 2 ^ format.fractionBits ≤
      divideToEven numerator (denominator * 2 ^ dropped) := by
    apply le_divideToEven (Nat.mul_pos hPositive (Nat.two_pow_pos _))
    rw [Nat.mul_comm denominator, ← Nat.mul_assoc]
    exact hLower
  have hNext : format.magnitude (body + 1) ≤ 2 ^ format.fractionBits * 2 ^ dropped := by
    rw [← magnitude_powerOfTwo]
    exact magnitude_le_iff.2 hSmall
  have hLess := format.magnitude_lt_succ body
  constructor
  · rw [Nat.add_mul, Nat.one_mul] at hSmall
    omega
  · calc
      _ < 2 * (2 ^ format.fractionBits * 2 ^ dropped) * denominator :=
        Nat.mul_lt_mul_of_pos_right (by omega) hPositive
      _ = 2 * (2 ^ format.fractionBits * 2 ^ dropped * denominator) := Nat.mul_assoc _ _ _
      _ ≤ 2 * numerator := Nat.mul_le_mul_left 2 hLower

private theorem carried_le {dropped : Nat} (hPositive : 0 < denominator)
    (hLarge : (dropped + 2) * 2 ^ format.fractionBits ≤ body)
    (hUpper : numerator < 2 * 2 ^ format.fractionBits * 2 ^ dropped * denominator) :
    divideToEven numerator (denominator * 2 ^ dropped) + dropped * 2 ^ format.fractionBits ≤
        body ∧
      2 * numerator < (format.magnitude body + format.magnitude (body + 1)) * denominator := by
  have hSignificand : divideToEven numerator (denominator * 2 ^ dropped) ≤
      2 * 2 ^ format.fractionBits := by
    apply divideToEven_le (Nat.mul_pos hPositive (Nat.two_pow_pos _))
    rw [Nat.mul_comm denominator, ← Nat.mul_assoc]
    exact hUpper.le
  have hBody : 2 * 2 ^ format.fractionBits * 2 ^ dropped ≤ format.magnitude body := by
    calc
      _ = 2 ^ format.fractionBits * 2 ^ (dropped + 1) := by ring
      _ ≤ format.magnitude body := by
          rw [← magnitude_powerOfTwo]
          exact magnitude_le_iff.2 hLarge
  have hLess := format.magnitude_lt_succ body
  constructor
  · rw [Nat.add_mul] at hLarge
    omega
  · calc
      _ < 2 * (2 * 2 ^ format.fractionBits * 2 ^ dropped * denominator) :=
        Nat.mul_lt_mul_of_pos_left hUpper (by omega)
      _ = 2 * (2 * 2 ^ format.fractionBits * 2 ^ dropped) * denominator :=
        (Nat.mul_assoc _ _ _).symm
      _ ≤ _ := Nat.mul_le_mul_right _ (by omega)

/-- A quotient is rounded to a finite body or below it exactly if it does not pass the point
halfway to the next body; that point itself goes to the even one. -/
theorem nearest_le_iff (hFraction : 1 ≤ format.fractionBits) (hPositive : 0 < denominator)
    (hFinite : body < format.infinity) :
    format.nearest numerator denominator ≤ body ↔
      2 * numerator < (format.magnitude body + format.magnitude (body + 1)) * denominator ∨
        2 * numerator = (format.magnitude body + format.magnitude (body + 1)) * denominator ∧
          body % 2 = 0 := by
  have hUpper := lt_droppedBits format numerator hPositive
  have hLower := droppedBits_le format numerator denominator
  unfold nearest
  dsimp only
  rw [min_le_iff, or_iff_left (Nat.not_le.2 hFinite)]
  generalize format.droppedBits numerator denominator = dropped at hUpper hLower ⊢
  rcases Nat.lt_or_ge body ((dropped + 2) * 2 ^ format.fractionBits) with hLess | hLarge
  · by_cases hLow : dropped = 0 ∨ (dropped + 1) * 2 ^ format.fractionBits ≤ body
    · exact carried_le_iff hFraction hPositive ⟨hLow, hLess.le⟩ hLess
    · rw [not_or, Nat.not_le] at hLow
      obtain ⟨hBody, hHalfway⟩ := lt_carried hPositive hLow.2 (hLower.resolve_left hLow.1)
      refine iff_of_false (Nat.not_le.2 hBody) ?_
      omega
  · obtain ⟨hBody, hHalfway⟩ := carried_le hPositive hLarge hUpper
    exact iff_of_true hBody (.inl hHalfway)

theorem nearest_le_of_le (hFraction : 1 ≤ format.fractionBits) (hPositive : 0 < denominator)
    (hFinite : body < format.infinity)
    (hNumerator : numerator ≤ format.magnitude body * denominator) :
    format.nearest numerator denominator ≤ body := by
  have hLess := Nat.mul_lt_mul_of_pos_right (format.magnitude_lt_succ body) hPositive
  rw [nearest_le_iff hFraction hPositive hFinite, Nat.add_mul]
  omega

theorem le_nearest_of_le (hFraction : 1 ≤ format.fractionBits) (hPositive : 0 < denominator)
    (hNumber : body ≤ format.infinity)
    (hNumerator : format.magnitude body * denominator ≤ numerator) :
    body ≤ format.nearest numerator denominator := by
  cases body with
  | zero => exact Nat.zero_le _
  | succ previous =>
      have hLess := Nat.mul_lt_mul_of_pos_right (format.magnitude_lt_succ previous) hPositive
      refine Nat.not_le.1 fun hLe => ?_
      rw [nearest_le_iff hFraction hPositive hNumber, Nat.add_mul] at hLe
      omega

end AnnotationDefaults.BinaryFormat
