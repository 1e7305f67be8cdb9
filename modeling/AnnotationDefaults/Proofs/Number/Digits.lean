import AnnotationDefaults.Number.Decimal
import Mathlib.Algebra.Group.Nat.Defs

set_option autoImplicit false

/-!
Decimal digits read back. The value of a row of digits is `Nat.ofDigitChars`; both
readers of the library, the bounded integer reader and the digits of a decimal
literal, compute it, and the integer token of any number in range reads back.
-/

namespace AnnotationDefaults

namespace Integer

theorem isDigit_iff {symbol : Char} :
    symbol.isDigit = true ↔ '0' ≤ symbol ∧ symbol ≤ '9' := by
  rw [Char.isDigit, Bool.and_eq_true, decide_eq_true_eq, decide_eq_true_eq]
  rfl

theorem digit?_of_isDigit {symbol : Char} (hDigit : symbol.isDigit = true) :
    digit? symbol = some (symbol.toNat - 48) := by
  rw [digit?, if_pos (isDigit_iff.1 hDigit)]

theorem isDigit_of_digit?_eq_some {symbol : Char} {digit : Nat}
    (hDigit : digit? symbol = some digit) : symbol.isDigit = true := by
  unfold digit? at hDigit
  by_cases hRange : '0' ≤ symbol ∧ symbol ≤ '9'
  · exact isDigit_iff.2 hRange
  · rw [if_neg hRange] at hDigit
    cases hDigit

theorem digit?_eq_none_of_isDigit {symbol : Char} (hDigit : symbol.isDigit = false) :
    digit? symbol = none := by
  cases hFound : digit? symbol with
  | none => rfl
  | some digit =>
      rw [isDigit_of_digit?_eq_some hFound] at hDigit
      cases hDigit

theorem le_ofDigitChars (symbols : List Char) (total : Nat) :
    total ≤ Nat.ofDigitChars 10 symbols total := by
  rw [Nat.ofDigitChars_eq_ofDigitChars_zero]
  have hPower : total ≤ 10 ^ symbols.length * total :=
    Nat.le_mul_of_pos_left _ (Nat.pow_pos (by omega))
  omega

/-! ### Folding digits -/

/-- The number of a sign and a magnitude. -/
def ofSign (negative : Bool) (magnitude : Nat) : Int :=
  if negative then -(magnitude : Int) else magnitude

theorem fits_ofSign_of_le {width smaller larger : Nat} {negative : Bool}
    (hLe : smaller ≤ larger) (hFits : Fits width (ofSign negative larger)) :
    Fits width (ofSign negative smaller) := by
  have hPositive : (0 : Int) < 2 ^ (width - 1) := Int.pow_pos (by omega)
  unfold Fits at hFits ⊢
  cases negative with
  | true =>
      simp only [ofSign, if_true] at hFits ⊢
      omega
  | false =>
      simp only [ofSign, Bool.false_eq_true, if_false] at hFits ⊢
      omega

/-- The running total never exceeds the final one, so only the final one has to
be in range. -/
theorem foldDigits_ofSign {width : Nat} (negative : Bool) {symbols : List Char} {total : Nat}
    (hDigits : ∀ symbol ∈ symbols, symbol.isDigit = true)
    (hFits : Fits width (ofSign negative (Nat.ofDigitChars 10 symbols total))) :
    foldDigits width negative (ofSign negative total) symbols =
      .ok (ofSign negative (Nat.ofDigitChars 10 symbols total)) := by
  induction symbols generalizing total with
  | nil => rfl
  | cons symbol rest ih =>
      rw [List.forall_mem_cons] at hDigits
      rw [Nat.ofDigitChars_cons] at hFits ⊢
      have hNext : (if negative then ofSign negative total * 10 - ((symbol.toNat - 48 : Nat) : Int)
          else ofSign negative total * 10 + ((symbol.toNat - 48 : Nat) : Int)) =
          ofSign negative (10 * total + (symbol.toNat - '0'.toNat)) := by
        have hZero : '0'.toNat = 48 := rfl
        cases negative with
        | true =>
            simp only [ofSign, if_true, hZero]
            omega
        | false =>
            simp only [ofSign, Bool.false_eq_true, if_false, hZero]
            omega
      have hNextFits := fits_ofSign_of_le (le_ofDigitChars rest _) hFits
      simp only [foldDigits, digit?_of_isDigit hDigits.1]
      rw [hNext, if_pos hNextFits]
      exact ih hDigits.2 hFits

theorem foldDigits_fits {width : Nat} {negative : Bool} {total value : Int}
    {symbols : List Char} (hTotal : Fits width total)
    (hValue : foldDigits width negative total symbols = .ok value) : Fits width value := by
  induction symbols generalizing total with
  | nil =>
      cases hValue
      exact hTotal
  | cons symbol rest ih =>
      unfold foldDigits at hValue
      cases hDigit : digit? symbol with
      | none =>
          rw [hDigit] at hValue
          cases hValue
      | some digit =>
          rw [hDigit] at hValue
          dsimp only at hValue
          generalize (if negative then total * 10 - (digit : Int) else total * 10 + digit) = next
            at hValue
          by_cases hNext : Fits width next
          · rw [if_pos hNext] at hValue
            exact ih hNext hValue
          · rw [if_neg hNext] at hValue
            cases hValue

/-! ### Integer tokens -/

theorem toDigits_all_isDigit (magnitude : Nat) :
    ∀ symbol ∈ Nat.toDigits 10 magnitude, symbol.isDigit = true := by
  intro symbol hMem
  exact Nat.isDigit_of_mem_toDigits (by omega) (by omega) hMem

theorem toDigits_eq_cons (magnitude : Nat) :
    ∃ symbol rest, Nat.toDigits 10 magnitude = symbol :: rest ∧ symbol.isDigit = true := by
  cases hSymbols : Nat.toDigits 10 magnitude with
  | nil => exact absurd hSymbols Nat.toDigits_ne_nil
  | cons symbol rest =>
      have hDigits := toDigits_all_isDigit magnitude
      rw [hSymbols, List.forall_mem_cons] at hDigits
      exact ⟨symbol, rest, rfl, hDigits.1⟩

theorem ofDigitChars_lt {symbols : List Char} (total : Nat)
    (hDigits : ∀ symbol ∈ symbols, symbol.isDigit = true) :
    Nat.ofDigitChars 10 symbols total < 10 ^ symbols.length * (total + 1) := by
  induction symbols generalizing total with
  | nil =>
      rw [Nat.ofDigitChars_nil, List.length_nil, Nat.pow_zero, Nat.one_mul]
      exact Nat.lt_succ_self total
  | cons symbol rest ih =>
      rw [List.forall_mem_cons] at hDigits
      have hNine : symbol.toNat - '0'.toNat ≤ 9 :=
        Nat.sub_le_sub_right (isDigit_iff.1 hDigits.1).2 48
      have hNext : 10 * total + (symbol.toNat - '0'.toNat) + 1 ≤ 10 * (total + 1) := by omega
      rw [Nat.ofDigitChars_cons, List.length_cons, Nat.pow_succ, Nat.mul_assoc]
      exact Nat.lt_of_lt_of_le (ih _ hDigits.2) (Nat.mul_le_mul_left _ hNext)

theorem toDigits_ne_zero_cons (magnitude : Nat) {second : Char} {rest : List Char} :
    Nat.toDigits 10 magnitude ≠ '0' :: second :: rest := by
  intro hSymbols
  have hDigits := toDigits_all_isDigit magnitude
  have hValue := Nat.ofDigitChars_toDigits (b := 10) (n := magnitude) (by omega) (by omega)
  rw [hSymbols, List.forall_mem_cons] at hDigits
  have hBelow := ofDigitChars_lt 0 hDigits.2
  rw [hSymbols, Nat.ofDigitChars_cons] at hValue
  rw [Nat.mul_one] at hBelow
  have hPositive : 0 < (second :: rest).length := Nat.succ_pos _
  have hLength : (Nat.toDigits 10 magnitude).length ≤ (second :: rest).length := by
    refine (Nat.length_toDigits_le_iff (by decide) hPositive).2 ?_
    rw [← hValue]
    exact hBelow
  rw [hSymbols, List.length_cons] at hLength
  omega

theorem read_fits {width : Nat} {token : String} {value : Int}
    (hValue : read width token = .ok value) : Fits width value := by
  have hZero : Fits width 0 := by
    have hPositive : (0 : Int) < 2 ^ (width - 1) := Int.pow_pos (by omega)
    unfold Fits
    omega
  unfold read at hValue
  split at hValue
  · cases hValue
  · cases hValue
  · cases hValue
  · exact foldDigits_fits hZero hValue
  · exact foldDigits_fits hZero hValue
  · exact foldDigits_fits hZero hValue

private theorem foldDigits_unique {width other : Nat} {negative : Bool}
    {total value value' : Int} {symbols : List Char}
    (hValue : foldDigits width negative total symbols = .ok value)
    (hOther : foldDigits other negative total symbols = .ok value') : value = value' := by
  induction symbols generalizing total with
  | nil =>
      cases hValue
      cases hOther
      rfl
  | cons symbol rest ih =>
      unfold foldDigits at hValue hOther
      cases hDigit : digit? symbol with
      | none =>
          rw [hDigit] at hValue
          cases hValue
      | some digit =>
          rw [hDigit] at hValue hOther
          dsimp only at hValue hOther
          generalize (if negative then total * 10 - (digit : Int) else total * 10 + digit) = next
            at hValue hOther
          by_cases hNext : Fits width next
          · by_cases hNextOther : Fits other next
            · rw [if_pos hNext] at hValue
              rw [if_pos hNextOther] at hOther
              exact ih hValue hOther
            · rw [if_neg hNextOther] at hOther
              cases hOther
          · rw [if_neg hNext] at hValue
            cases hValue

private theorem exists_read_render_eq (value : Int) :
    ∃ negative magnitude, ofSign negative magnitude = value ∧ ∀ width,
      read width (render value) = foldDigits width negative 0 (Nat.toDigits 10 magnitude) := by
  cases value with
  | ofNat magnitude =>
      refine ⟨false, magnitude, rfl, fun width => ?_⟩
      obtain ⟨symbol, rest, hSymbols, hDigit⟩ := toDigits_eq_cons magnitude
      have hPlus : symbol ≠ '+' := by
        rintro rfl
        cases hDigit
      have hMinus : symbol ≠ '-' := by
        rintro rfl
        cases hDigit
      simp only [read, render, String.toList_ofList, hSymbols]
      split
      · contradiction
      · rename_i hEqual
        cases hEqual
        contradiction
      · rename_i hEqual
        cases hEqual
        contradiction
      · rename_i hEqual
        cases hEqual
        contradiction
      · rename_i hEqual
        cases hEqual
        contradiction
      · rfl
  | negSucc below =>
      refine ⟨true, below + 1, rfl, fun width => ?_⟩
      obtain ⟨symbol, rest, hSymbols, hDigit⟩ := toDigits_eq_cons (below + 1)
      simp only [read, render, String.toList_ofList, hSymbols]

theorem read_render {width : Nat} {value : Int} (hFits : Fits width value) :
    read width (render value) = .ok value := by
  obtain ⟨negative, magnitude, rfl, hRead⟩ := exists_read_render_eq value
  have hValue := Nat.ofDigitChars_toDigits (b := 10) (n := magnitude) (by omega) (by omega)
  have hZero : ofSign negative 0 = 0 := by
    cases negative with
    | _ => rfl
  have hFold := @foldDigits_ofSign width negative _ 0 (toDigits_all_isDigit magnitude)
    (by rw [hValue]; exact hFits)
  rw [hZero, hValue] at hFold
  rw [hRead, hFold]

/-- A width only bounds what is read: a numeral is read as its number, or not at all. -/
theorem read_render_unique {width other : Nat} {value found : Int} (hFits : Fits other value)
    (hFound : read width (render value) = .ok found) : found = value := by
  obtain ⟨negative, magnitude, -, hRead⟩ := exists_read_render_eq value
  have hValue := read_render hFits
  rw [hRead] at hFound hValue
  exact foldDigits_unique hFound hValue

theorem mem_render {value : Int} {symbol : Char} (hMem : symbol ∈ (render value).toList) :
    symbol.isDigit = true ∨ symbol = '-' := by
  cases value with
  | ofNat magnitude =>
      rw [render, String.toList_ofList] at hMem
      exact Or.inl (toDigits_all_isDigit magnitude symbol hMem)
  | negSucc below =>
      rw [render, String.toList_ofList, List.mem_cons] at hMem
      rcases hMem with hSign | hDigit
      · exact Or.inr hSign
      · exact Or.inl (toDigits_all_isDigit (below + 1) symbol hDigit)

theorem lt_of_render_eq_singleton {value : Int} {symbol : Char}
    (hSingle : (render value).toList = [symbol]) : 0 ≤ value ∧ value < 10 := by
  cases value with
  | ofNat magnitude =>
      rw [render, String.toList_ofList] at hSingle
      have hLess := ofDigitChars_lt 0 (toDigits_all_isDigit magnitude)
      rw [Nat.ofDigitChars_toDigits (by omega) (by omega), hSingle, List.length_singleton] at hLess
      exact ⟨Int.natCast_nonneg magnitude, Int.ofNat_lt.2 hLess⟩
  | negSucc below =>
      obtain ⟨first, rest, hDigits, -⟩ := toDigits_eq_cons (below + 1)
      rw [render, String.toList_ofList, hDigits] at hSingle
      cases hSingle

theorem render_natCast_injective {first second : Nat} (hSame : render first = render second) :
    first = second := by
  have hDigits : Nat.toDigits 10 first = Nat.toDigits 10 second := String.ofList_injective hSame
  have hNumbers := congrArg (fun symbols => Nat.ofDigitChars 10 symbols 0) hDigits
  rw [Nat.ofDigitChars_toDigits (by omega) (by omega),
    Nat.ofDigitChars_toDigits (by omega) (by omega)] at hNumbers
  exact hNumbers

end Integer

namespace Decimal

/-! ### Digits of a literal -/

theorem ofDigits_map {symbols : List Char} :
    ofDigits (symbols.map fun symbol => symbol.toNat - 48) = Nat.ofDigitChars 10 symbols 0 := by
  rw [ofDigits, List.foldl_map]
  rfl

theorem spanDigits_of_head {rest : List Char}
    (hStop : ∀ symbol ∈ rest.head?, symbol.isDigit = false) : spanDigits rest = ([], rest) := by
  cases rest with
  | nil => rfl
  | cons symbol rest =>
      simp only [spanDigits, Integer.digit?_eq_none_of_isDigit (hStop symbol rfl)]

theorem spanDigits_append {symbols : List Char} (rest : List Char)
    (hDigits : ∀ symbol ∈ symbols, symbol.isDigit = true)
    (hStop : ∀ symbol ∈ rest.head?, symbol.isDigit = false) :
    spanDigits (symbols ++ rest) = (symbols.map fun symbol => symbol.toNat - 48, rest) := by
  induction symbols with
  | nil => exact spanDigits_of_head hStop
  | cons symbol symbols ih =>
      rw [List.forall_mem_cons] at hDigits
      rw [List.cons_append, spanDigits, Integer.digit?_of_isDigit hDigits.1, ih hDigits.2]
      rfl

theorem read?_digits {symbols : List Char} (hNonempty : symbols ≠ [])
    (hDigits : ∀ symbol ∈ symbols, symbol.isDigit = true) :
    read? symbols = some ⟨Nat.ofDigitChars 10 symbols 0, 0⟩ := by
  have hSpan := spanDigits_append [] hDigits (by simp)
  rw [List.append_nil] at hSpan
  have hEmpty : (symbols.map fun symbol => symbol.toNat - 48).isEmpty = false := by
    simpa using hNonempty
  simp only [read?, hSpan, hEmpty, Bool.false_and, Bool.false_eq_true, if_false, ofParts,
    List.append_nil, ofDigits_map, List.length_nil]
  rfl

theorem read?_point {whole fraction : List Char} (hNonempty : whole ≠ [])
    (hWhole : ∀ symbol ∈ whole, symbol.isDigit = true)
    (hFraction : ∀ symbol ∈ fraction, symbol.isDigit = true) :
    read? (whole ++ '.' :: fraction) =
      some ⟨Nat.ofDigitChars 10 (whole ++ fraction) 0, -(fraction.length : Int)⟩ := by
  have hSpan := spanDigits_append ('.' :: fraction) hWhole
    (by rintro symbol ⟨⟩; rfl)
  have hFractionSpan := spanDigits_append [] hFraction (by simp)
  rw [List.append_nil] at hFractionSpan
  have hEmpty : (whole.map fun symbol => symbol.toNat - 48).isEmpty = false := by
    simpa using hNonempty
  simp only [read?, hSpan, hFractionSpan, hEmpty, Bool.false_and, Bool.false_eq_true, if_false,
    ofParts, ← List.map_append, ofDigits_map, List.length_map, Int.zero_sub]

theorem read?_digits_mark {symbols rest : List Char} {power : Int} (hNonempty : symbols ≠ [])
    (hDigits : ∀ symbol ∈ symbols, symbol.isDigit = true) (hPower : readPower? rest = some power) :
    read? (symbols ++ 'e' :: rest) = some ⟨Nat.ofDigitChars 10 symbols 0, power⟩ := by
  have hSpan := spanDigits_append ('e' :: rest) hDigits (by rintro symbol ⟨⟩; rfl)
  have hEmpty : (symbols.map fun symbol => symbol.toNat - 48).isEmpty = false := by
    simpa using hNonempty
  have hRead : read? (symbols ++ 'e' :: rest) =
      (readPower? rest).map (ofParts (symbols.map fun symbol => symbol.toNat - 48) []) := by
    simp only [read?, hSpan, hEmpty, Bool.false_and]
    rfl
  rw [hRead, hPower, Option.map_some, ofParts, List.append_nil, ofDigits_map, List.length_nil,
    Int.natCast_zero, Int.sub_zero]

theorem read?_point_mark {whole fraction rest : List Char} {power : Int} (hNonempty : whole ≠ [])
    (hWhole : ∀ symbol ∈ whole, symbol.isDigit = true)
    (hFraction : ∀ symbol ∈ fraction, symbol.isDigit = true)
    (hPower : readPower? rest = some power) :
    read? (whole ++ '.' :: (fraction ++ 'e' :: rest)) =
      some ⟨Nat.ofDigitChars 10 (whole ++ fraction) 0, power - fraction.length⟩ := by
  have hSpan := spanDigits_append ('.' :: (fraction ++ 'e' :: rest)) hWhole
    (by rintro symbol ⟨⟩; rfl)
  have hFractionSpan := spanDigits_append ('e' :: rest) hFraction (by rintro symbol ⟨⟩; rfl)
  have hEmpty : (whole.map fun symbol => symbol.toNat - 48).isEmpty = false := by
    simpa using hNonempty
  simp only [read?, hSpan, hFractionSpan, hEmpty, Bool.false_and, Bool.false_eq_true, if_false,
    true_or, if_true, hPower, Option.map_some, ofParts, ← List.map_append, ofDigits_map,
    List.length_map]

theorem exists_unsigned_of_read? {symbols : List Char} {literal : Decimal}
    (hRead : read? symbols = some literal) :
    ∃ symbol rest, symbols = symbol :: rest ∧ symbol ≠ '-' ∧ symbol ≠ '+' := by
  cases symbols with
  | nil => cases hRead
  | cons symbol rest =>
      refine ⟨symbol, rest, rfl, ?_, ?_⟩
      · rintro rfl
        cases hRead
      · rintro rfl
        cases hRead

/-! ### Powers of ten -/

def readDigits? (negative : Bool) (symbols : List Char) : Option Int :=
  match spanDigits symbols with
  | (digit :: digits, []) =>
      let power : Int := ofDigits (digit :: digits)
      some (if negative then -power else power)
  | _ => none

theorem readPower?_minus (symbols : List Char) :
    readPower? ('-' :: symbols) = readDigits? true symbols := rfl

theorem readPower?_unsigned {symbol : Char} (hMinus : symbol ≠ '-') (hPlus : symbol ≠ '+')
    (symbols : List Char) :
    readPower? (symbol :: symbols) = readDigits? false (symbol :: symbols) := by
  unfold readPower?
  split
  rename_i negative others hSign
  split at hSign
  · rename_i hEqual
    exact absurd (List.cons.inj hEqual).1 hMinus
  · rename_i hEqual
    exact absurd (List.cons.inj hEqual).1 hPlus
  · cases hSign
    rfl

private theorem readDigits?_toDigits (negative : Bool) (magnitude : Nat) :
    readDigits? negative (Nat.toDigits 10 magnitude) =
      some (if negative then -(magnitude : Int) else magnitude) := by
  have hSpan := spanDigits_append [] (Integer.toDigits_all_isDigit magnitude) (by simp)
  have hValue : ofDigits ((Nat.toDigits 10 magnitude).map fun symbol => symbol.toNat - 48) =
      magnitude := by
    rw [ofDigits_map, Nat.ofDigitChars_toDigits (by omega) (by omega)]
  obtain ⟨symbol, rest, hSymbols, -⟩ := Integer.toDigits_eq_cons magnitude
  rw [List.append_nil] at hSpan
  rw [hSymbols, List.map_cons] at hSpan hValue
  rw [hSymbols, readDigits?, hSpan]
  dsimp only
  rw [hValue]

theorem readPower?_render (power : Int) :
    readPower? (Integer.render power).toList = some power ∧
      (0 ≤ power → readPower? ('+' :: (Integer.render power).toList) = some power) := by
  cases power with
  | ofNat magnitude =>
      have hText : (Integer.render (.ofNat magnitude)).toList = Nat.toDigits 10 magnitude :=
        String.toList_ofList
      rw [hText]
      refine ⟨?_, fun _ => readDigits?_toDigits false magnitude⟩
      obtain ⟨symbol, rest, hSymbols, hDigit⟩ := Integer.toDigits_eq_cons magnitude
      have hMinus : symbol ≠ '-' := by
        rintro rfl
        cases hDigit
      have hPlus : symbol ≠ '+' := by
        rintro rfl
        cases hDigit
      rw [hSymbols, readPower?_unsigned hMinus hPlus, ← hSymbols]
      exact readDigits?_toDigits false magnitude
  | negSucc below =>
      have hText : (Integer.render (.negSucc below)).toList = '-' :: Nat.toDigits 10 (below + 1) :=
        String.toList_ofList
      rw [hText]
      refine ⟨?_, fun hPower => absurd hPower (by omega)⟩
      rw [readPower?_minus, readDigits?_toDigits]
      rfl

end Decimal

end AnnotationDefaults
