import AnnotationDefaults.Number.Layout
import AnnotationDefaults.Proofs.Number.Digits
import AnnotationDefaults.Proofs.Number.Value
import AnnotationDefaults.Scalar.Token

set_option autoImplicit false

/-!
Floating-point text reads back, whatever its layout. A written decimal is read as one of the
same value, and so the text of a bit pattern is read as that pattern, or as the one pattern
that stands for everything that is no number. At another format it is read as the body of the
decimal that was written.
-/

namespace AnnotationDefaults

namespace FloatLayout

variable {layout : FloatLayout}

theorem digits_isDigit (value : Nat) : ∀ symbol ∈ digits value, symbol.isDigit = true :=
  Integer.toDigits_all_isDigit value

theorem ofDigitChars_digits (value : Nat) : Nat.ofDigitChars 10 (digits value) 0 = value :=
  Nat.ofDigitChars_toDigits (by omega) (by omega)

theorem replicate_isDigit (count : Nat) :
    ∀ symbol ∈ List.replicate count '0', symbol.isDigit = true := by
  intro symbol hMem
  rw [List.eq_of_mem_replicate hMem]
  rfl

private theorem ofDigitChars_zeros (count value : Nat) :
    Nat.ofDigitChars 10 (List.replicate count '0' ++ digits value) 0 = value := by
  rw [Nat.ofDigitChars_append, Nat.ofDigitChars_replicate_zero, Nat.mul_zero,
    ofDigitChars_digits]

private theorem read?_inside {coefficient places : Nat}
    (hPlaces : places < (digits coefficient).length) :
    Decimal.read? ((digits coefficient).take ((digits coefficient).length - places) ++
      '.' :: (digits coefficient).drop ((digits coefficient).length - places)) =
      some ⟨coefficient, -(places : Int)⟩ := by
  have hDigits := digits_isDigit coefficient
  rw [Decimal.read?_point, List.take_append_drop, ofDigitChars_digits, List.length_drop]
  · have hLength : (digits coefficient).length - ((digits coefficient).length - places) =
        places := by omega
    rw [hLength]
  · apply List.ne_nil_of_length_pos
    rw [List.length_take]
    omega
  · intro symbol hMem
    exact hDigits symbol (List.mem_of_mem_take hMem)
  · intro symbol hMem
    exact hDigits symbol (List.mem_of_mem_drop hMem)

private theorem read?_below {coefficient places : Nat}
    (hPlaces : (digits coefficient).length ≤ places) :
    Decimal.read? ('0' :: '.' :: List.replicate (places - (digits coefficient).length) '0' ++
      digits coefficient) = some ⟨coefficient, -(places : Int)⟩ := by
  have hZero : ∀ symbol ∈ ['0'], symbol.isDigit = true := by
    rw [List.forall_mem_singleton]
    rfl
  have hFraction := List.forall_mem_append.2
    ⟨replicate_isDigit (places - (digits coefficient).length), digits_isDigit coefficient⟩
  have hRead := Decimal.read?_point (List.cons_ne_nil '0' []) hZero hFraction
  have hValue : Nat.ofDigitChars 10 (['0'] ++
      (List.replicate (places - (digits coefficient).length) '0' ++ digits coefficient)) 0 =
      coefficient := by
    rw [← List.append_assoc]
    exact ofDigitChars_zeros (places - (digits coefficient).length + 1) coefficient
  have hLength : (List.replicate (places - (digits coefficient).length) '0' ++
      digits coefficient).length = places := by
    rw [List.length_append, List.length_replicate]
    omega
  rw [hValue, hLength] at hRead
  exact hRead

private theorem read?_whole (layout : FloatLayout) (coefficient power : Nat) :
    ∃ literal, Decimal.read? (layout.positionalText ⟨coefficient, power⟩) = some literal ∧
      literal.value = Decimal.value ⟨coefficient, power⟩ := by
  have hNonempty : digits coefficient ++ List.replicate power '0' ≠ [] :=
    List.append_ne_nil_of_left_ne_nil Nat.toDigits_ne_nil _
  have hDigits := List.forall_mem_append.2 ⟨digits_isDigit coefficient, replicate_isDigit power⟩
  have hValue : Nat.ofDigitChars 10 (digits coefficient ++ List.replicate power '0') 0 =
      10 ^ power * coefficient := by
    rw [Nat.ofDigitChars_append, ofDigitChars_digits, Nat.ofDigitChars_replicate_zero]
  have hText : layout.positionalText ⟨coefficient, power⟩ =
      digits coefficient ++ List.replicate power '0' ++
        if layout.keepsFraction then ['.', '0'] else [] := rfl
  rw [hText]
  cases layout.keepsFraction with
  | false =>
      have hRead := Decimal.read?_digits hNonempty hDigits
      rw [hValue] at hRead
      rw [if_neg Bool.false_ne_true, List.append_nil]
      refine ⟨_, hRead, ?_⟩
      rw [Decimal.value, Decimal.value, zpow_zero, zpow_natCast]
      push_cast
      ring
  | true =>
      have hRead := Decimal.read?_point hNonempty hDigits (replicate_isDigit 1)
      rw [Nat.ofDigitChars_append, hValue, Nat.ofDigitChars_replicate_zero,
        List.length_replicate] at hRead
      rw [if_pos rfl]
      refine ⟨_, hRead, ?_⟩
      rw [Decimal.value, Decimal.value, zpow_neg, zpow_natCast, zpow_natCast]
      push_cast
      field_simp

theorem read?_positionalText (layout : FloatLayout) (decimal : Decimal) :
    ∃ literal, Decimal.read? (layout.positionalText decimal) = some literal ∧
      literal.value = decimal.value := by
  rcases decimal with ⟨coefficient, exponent⟩
  cases exponent with
  | ofNat power => exact read?_whole layout coefficient power
  | negSucc below =>
      refine ⟨⟨coefficient, .negSucc below⟩, ?_, rfl⟩
      by_cases hPlaces : below + 1 < (digits coefficient).length
      · simp only [positionalText, if_pos hPlaces]
        exact read?_inside hPlaces
      · simp only [positionalText, if_neg hPlaces]
        exact read?_below (Nat.not_lt.1 hPlaces)

private def powerText (layout : FloatLayout) (power : Int) : List Char :=
  (if layout.signsPower && decide (0 ≤ power) then ['+'] else []) ++ (Integer.render power).toList

private theorem readPower?_powerText (layout : FloatLayout) (power : Int) :
    Decimal.readPower? (layout.powerText power) = some power := by
  obtain ⟨hPlain, hSigned⟩ := Decimal.readPower?_render power
  unfold powerText
  split
  · rename_i hSign
    exact hSigned (of_decide_eq_true (Bool.and_eq_true_iff.1 hSign).2)
  · exact hPlain

private theorem scientificText_cases (layout : FloatLayout) (decimal : Decimal) :
    ∃ first rest, digits decimal.coefficient = first :: rest ∧
      layout.scientificText decimal =
        (if rest = [] then [first] else first :: '.' :: rest) ++
          'e' :: layout.powerText (decimal.exponent + rest.length) := by
  obtain ⟨first, rest, hDigits, -⟩ := Integer.toDigits_eq_cons decimal.coefficient
  refine ⟨first, rest, hDigits, ?_⟩
  unfold scientificText powerText digits
  rw [hDigits]
  cases rest with
  | nil => simp
  | cons second others => simp

theorem read?_scientificText (layout : FloatLayout) (decimal : Decimal) :
    Decimal.read? (layout.scientificText decimal) = some decimal := by
  obtain ⟨first, rest, hDigits, hText⟩ := scientificText_cases layout decimal
  have hPower := layout.readPower?_powerText (decimal.exponent + rest.length)
  have hCoefficient := ofDigitChars_digits decimal.coefficient
  have hAll := digits_isDigit decimal.coefficient
  rw [hDigits] at hCoefficient hAll
  rw [hText]
  cases rest with
  | nil =>
      rw [if_pos rfl, Decimal.read?_digits_mark (List.cons_ne_nil first []) hAll hPower,
        hCoefficient, List.length_nil, Int.natCast_zero, Int.add_zero]
  | cons second others =>
      rw [List.forall_mem_cons] at hAll
      have hRead := Decimal.read?_point_mark (List.cons_ne_nil first [])
        (List.forall_mem_singleton.2 hAll.1) hAll.2 hPower
      rw [List.singleton_append, List.singleton_append, hCoefficient, Int.add_sub_cancel] at hRead
      rw [if_neg (List.cons_ne_nil second others)]
      exact hRead

/-- A written decimal is read as one of the same value. -/
theorem read?_decimalText (layout : FloatLayout) (decimal : Decimal) :
    ∃ literal, Decimal.read? (layout.decimalText decimal) = some literal ∧
      literal.value = decimal.value := by
  unfold decimalText
  dsimp only
  split
  · exact read?_positionalText layout decimal
  · split
    · exact read?_positionalText layout decimal
    · exact ⟨decimal, read?_scientificText layout decimal, rfl⟩

end FloatLayout

namespace FloatToken

variable {layout : FloatLayout} {written format : BinaryFormat} {bits : Nat}

private theorem readBody?_infinity :
    readBody? format ['i', 'n', 'f'] = some format.infinity := by
  have hRead : Decimal.read? ['i', 'n', 'f'] = none := by decide
  have hName : String.ofList (['i', 'n', 'f'].map Char.toLower) = "inf" := by decide
  simp only [readBody?, hRead, hName, true_or, if_true]

private def magnitudeText (layout : FloatLayout) (format : BinaryFormat) (body : Nat) : List Char :=
  if body = format.infinity then ['i', 'n', 'f']
  else layout.decimalText (Decimal.shortest layout.tie format body)

private theorem readBody?_decimalText (layout : FloatLayout) (hFraction : 2 ≤ format.fractionBits)
    (decimal : Decimal) :
    readBody? format (layout.decimalText decimal) = some (decimal.body format) := by
  obtain ⟨literal, hRead, hValue⟩ := layout.read?_decimalText decimal
  simp only [readBody?, hRead, Decimal.body_eq_of_value_eq hFraction hValue]

private theorem readBody?_magnitudeText (layout : FloatLayout)
    (hFraction : 2 ≤ format.fractionBits) {body : Nat} (hNumber : body ≤ format.infinity) :
    readBody? format (magnitudeText layout format body) = some body := by
  unfold magnitudeText
  split
  · rename_i hInfinity
    rw [readBody?_infinity, hInfinity]
  · rw [readBody?_decimalText layout hFraction, Decimal.shortest_body _ hFraction (by omega)]

private theorem magnitudeText_eq_cons (layout : FloatLayout) (format : BinaryFormat) (body : Nat) :
    ∃ symbol rest, magnitudeText layout format body = symbol :: rest ∧ symbol ≠ '-' ∧
      symbol ≠ '+' := by
  unfold magnitudeText
  split
  · exact ⟨'i', ['n', 'f'], rfl, by decide, by decide⟩
  · obtain ⟨literal, hRead, -⟩ :=
      layout.read?_decimalText (Decimal.shortest layout.tie format body)
    exact Decimal.exists_unsigned_of_read? hRead

theorem infinity_add (format : BinaryFormat) :
    format.infinity + 2 ^ format.fractionBits = format.signWeight := by
  have hOne := Nat.two_pow_pos format.exponentBits
  rw [BinaryFormat.infinity, BinaryFormat.signWeight, Nat.pow_add, ← Nat.succ_mul,
    Nat.succ_eq_add_one, Nat.sub_add_cancel hOne]

theorem infinity_lt_signWeight (format : BinaryFormat) : format.infinity < format.signWeight := by
  have hSplit := infinity_add format
  have hHidden := Nat.two_pow_pos format.fractionBits
  omega

theorem nan_lt (hFraction : 2 ≤ format.fractionBits) : format.nan < format.signWeight := by
  have hHidden : 2 ^ (format.fractionBits - 1) < 2 ^ format.fractionBits :=
    Nat.pow_lt_pow_right (by omega) (by omega)
  have hSplit := infinity_add format
  unfold BinaryFormat.nan
  omega

theorem isNaN_nan (hFraction : 2 ≤ format.fractionBits) : format.isNaN format.nan = true := by
  have hHidden := Nat.two_pow_pos (format.fractionBits - 1)
  rw [BinaryFormat.isNaN, BinaryFormat.body, Nat.mod_eq_of_lt (nan_lt hFraction), decide_eq_true_eq]
  unfold BinaryFormat.nan
  omega

theorem withSign_body (hBits : bits < 2 * format.signWeight) :
    format.withSign (format.isNegative bits) (format.body bits) = bits := by
  unfold BinaryFormat.withSign BinaryFormat.isNegative BinaryFormat.body
  by_cases hNegative : format.signWeight ≤ bits
  · rw [if_pos (decide_eq_true hNegative), Nat.mod_eq_sub_mod hNegative,
      Nat.mod_eq_of_lt (by omega)]
    omega
  · rw [if_neg (by simpa using hNegative), Nat.mod_eq_of_lt (by omega)]

theorem withSign_lt (negative : Bool) {body : Nat} (hBody : body < format.signWeight) :
    format.withSign negative body < 2 * format.signWeight := by
  unfold BinaryFormat.withSign
  split
  · omega
  · omega

theorem isNegative_withSign (negative : Bool) {body : Nat} (hBody : body < format.signWeight) :
    format.isNegative (format.withSign negative body) = negative := by
  unfold BinaryFormat.isNegative BinaryFormat.withSign
  cases negative with
  | true => exact decide_eq_true (Nat.le_add_right _ _)
  | false => exact decide_eq_false (Nat.not_le.2 hBody)

theorem body_withSign (negative : Bool) {body : Nat} (hBody : body < format.signWeight) :
    format.body (format.withSign negative body) = body := by
  unfold BinaryFormat.body BinaryFormat.withSign
  cases negative with
  | true => exact (Nat.add_mod_left _ _).trans (Nat.mod_eq_of_lt hBody)
  | false => exact Nat.mod_eq_of_lt hBody

theorem read_signed {symbols : List Char} {body : Nat} (negative : Bool)
    (hSymbols : ∃ symbol rest, symbols = symbol :: rest ∧ symbol ≠ '-' ∧ symbol ≠ '+')
    (hBody : readBody? format symbols = some body) :
    read format (String.ofList ((if negative then ['-'] else []) ++ symbols)) =
      .ok (format.withSign negative body) := by
  cases negative with
  | true =>
      simp only [if_true, read, String.toList_ofList, List.singleton_append, hBody, Option.map_some]
  | false =>
      obtain ⟨symbol, rest, rfl, hMinus, hPlus⟩ := hSymbols
      simp only [BinaryFormat.withSign, Bool.false_eq_true, if_false, read, String.toList_ofList,
        List.nil_append, hMinus, hPlus, hBody]

private theorem text_eq (layout : FloatLayout) (hNumber : written.isNaN bits = false) :
    layout.text written bits = String.ofList
      ((if written.isNegative bits then ['-'] else []) ++
        magnitudeText layout written (written.body bits)) := by
  simp only [FloatLayout.text, hNumber, Bool.false_eq_true, if_false, magnitudeText]

/-- The text of a finite number is read at any format as the decimal that it writes. -/
theorem read_text_of_finite (layout : FloatLayout) (hFraction : 2 ≤ format.fractionBits)
    (hFinite : written.body bits < written.infinity) :
    read format (layout.text written bits) = .ok (format.withSign (written.isNegative bits)
      ((Decimal.shortest layout.tie written (written.body bits)).body format)) := by
  have hNumber : written.isNaN bits = false := decide_eq_false (Nat.not_lt.2 hFinite.le)
  have hText : magnitudeText layout written (written.body bits) =
      layout.decimalText (Decimal.shortest layout.tie written (written.body bits)) :=
    if_neg hFinite.ne
  rw [text_eq layout hNumber]
  apply read_signed _ (magnitudeText_eq_cons layout written _)
  rw [hText, readBody?_decimalText layout hFraction]

private theorem read_number (layout : FloatLayout) (hFraction : 2 ≤ format.fractionBits)
    (hBits : bits < 2 * format.signWeight) (hNumber : format.isNaN bits = false) :
    read format (layout.text format bits) = .ok bits := by
  have hBody : format.body bits ≤ format.infinity := Nat.not_lt.1 (of_decide_eq_false hNumber)
  rw [text_eq layout hNumber, read_signed _ (magnitudeText_eq_cons layout format _)
    (readBody?_magnitudeText layout hFraction hBody), withSign_body hBits]

/-- The text of a pattern is read as a pattern that agrees with it. -/
theorem read_text (layout : FloatLayout) (hFraction : 2 ≤ format.fractionBits)
    (hBits : bits < 2 * format.signWeight) :
    ∃ found, read format (layout.text format bits) = .ok found ∧
      found < 2 * format.signWeight ∧ format.agree bits found = true := by
  cases hNumber : format.isNaN bits with
  | false =>
      refine ⟨bits, read_number layout hFraction hBits hNumber, hBits, ?_⟩
      simp only [BinaryFormat.agree, beq_self_eq_true, Bool.or_true]
  | true =>
      have hBody : readBody? format ['N', 'a', 'N'] = some format.nan := by
        have hRead : Decimal.read? ['N', 'a', 'N'] = none := by decide
        have hName : String.ofList (['N', 'a', 'N'].map Char.toLower) = "nan" := by decide
        simp only [readBody?, hRead, hName]
        rfl
      refine ⟨format.nan, ?_, ?_, ?_⟩
      · have hText : layout.text format bits = String.ofList ['N', 'a', 'N'] := by
          simp only [FloatLayout.text, hNumber, if_true]
        simp only [hText, read, String.toList_ofList, hBody]
        rfl
      · have hLess := nan_lt hFraction
        omega
      · simp only [BinaryFormat.agree, hNumber, isNaN_nan hFraction, Bool.and_self, Bool.true_or]

theorem text_of_agree {other : Nat} (hAgree : format.agree bits other = true) :
    layout.text format bits = layout.text format other := by
  rw [BinaryFormat.agree, Bool.or_eq_true, Bool.and_eq_true, beq_iff_eq] at hAgree
  rcases hAgree with ⟨hBits, hOther⟩ | rfl
  · simp only [FloatLayout.text, hBits, hOther, if_true]
  · rfl

end FloatToken

end AnnotationDefaults
