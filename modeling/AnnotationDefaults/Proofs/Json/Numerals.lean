import AnnotationDefaults.Proofs.Json.Lexing
import AnnotationDefaults.Proofs.Number.ReadBack

set_option autoImplicit false

/-!
Number literals as texts. A literal of a document is also a floating-point token, which is
read as the decimal that it writes, and it stays one lexeme in front of whatever may follow a
value.
-/

namespace AnnotationDefaults.Json

open Utf8 (Symbol)

def NumberLiteral.decimal (literal : NumberLiteral) : Decimal :=
  Decimal.ofParts literal.whole (literal.fraction.getD []) (literal.power.getD 0)

/-! ### The parts of a literal -/

private theorem spanDigits_map_append (symbols : List Char) {rest : List Symbol}
    (hRest : Delimited rest) :
    spanDigits (symbols.map Symbol.char ++ rest) =
      ((Decimal.spanDigits symbols).1, (Decimal.spanDigits symbols).2.map Symbol.char ++ rest) := by
  induction symbols with
  | nil =>
      cases hRest with
      | _ => rfl
  | cons symbol symbols ih =>
      rw [List.map_cons, List.cons_append, spanDigits, Decimal.spanDigits]
      cases Integer.digit? symbol with
      | none => rfl
      | some digit =>
          dsimp only
          rw [ih]

private theorem spanDigits_map (symbols : List Char) :
    spanDigits (symbols.map Symbol.char) =
      ((Decimal.spanDigits symbols).1, (Decimal.spanDigits symbols).2.map Symbol.char) := by
  have hSpan := spanDigits_map_append symbols .nil
  rwa [List.append_nil, List.append_nil] at hSpan

/-- The fraction behind the whole digits of a token, and what follows it. -/
private inductive FractionText : List Char → Option (List Nat) → List Char → Prop
  | none {symbols : List Char} (hPoint : ∀ rest, symbols ≠ '.' :: rest) :
      FractionText symbols none symbols
  | pointed {rest after : List Char} {digits : List Nat}
      (hDigits : Decimal.spanDigits rest = (digits, after)) :
      FractionText ('.' :: rest) (some digits) after

private inductive PowerText : List Char → Option Int → Prop
  | none : PowerText [] none
  | marked {mark : Char} {rest : List Char} {power : Int} (hMark : mark = 'e' ∨ mark = 'E')
      (hPower : Decimal.readPower? rest = some power) : PowerText (mark :: rest) (some power)

private theorem read?_of_parts {symbols others after : List Char} {whole : List Nat}
    {fraction : Option (List Nat)} {power : Option Int}
    (hWhole : Decimal.spanDigits symbols = (whole, others)) (hNonempty : whole ≠ [])
    (hFraction : FractionText others fraction after) (hPower : PowerText after power) :
    Decimal.read? symbols =
      some (Decimal.ofParts whole (fraction.getD []) (power.getD 0)) := by
  have hEmpty : whole.isEmpty = false := by simpa using hNonempty
  cases hFraction with
  | none hPoint =>
      cases hPower with
      | none =>
          simp only [Decimal.read?, hWhole, hEmpty, Bool.false_and]
          rfl
      | @marked mark rest power hMark hPower =>
          have hRead : Decimal.read? symbols =
              (Decimal.readPower? rest).map (Decimal.ofParts whole []) := by
            simp only [Decimal.read?, hWhole, hEmpty, Bool.false_and]
            rcases hMark with rfl | rfl
            · rfl
            · rfl
          rw [hRead, hPower]
          rfl
  | pointed hDigits =>
      simp only [Decimal.read?, hWhole, hDigits, hEmpty, Bool.false_and, Bool.false_eq_true,
        if_false]
      cases hPower with
      | none => rfl
      | marked hMark hPower =>
          simp only [if_pos hMark, hPower]
          rfl

private theorem fraction?_of_ne {symbol : Char} (hPoint : symbol ≠ '.') (rest : List Symbol) :
    fraction? (.char symbol :: rest) = some (none, .char symbol :: rest) := by
  rw [fraction?]
  rintro others ⟨⟩
  exact hPoint rfl

private theorem fraction?_append {symbols : List Char} {fraction : Option (List Nat)}
    {after : List Symbol}
    (hFraction : fraction? (symbols.map Symbol.char) = some (fraction, after)) :
    ∃ others : List Char, after = others.map Symbol.char ∧
      FractionText symbols fraction others ∧
      ∀ rest, Delimited rest → fraction? (symbols.map Symbol.char ++ rest) =
        some (fraction, others.map Symbol.char ++ rest) := by
  cases symbols with
  | nil =>
      cases hFraction
      exact ⟨[], rfl, .none (fun _ => nofun), fun rest => fraction?_of_delimited⟩
  | cons symbol symbols =>
      by_cases hPoint : symbol = '.'
      · subst hPoint
        rw [List.map_cons, fraction?, spanDigits_map] at hFraction
        rcases hSpan : Decimal.spanDigits symbols with ⟨digits, others⟩
        rw [hSpan] at hFraction
        cases digits with
        | nil => cases hFraction
        | cons digit digits =>
            cases hFraction
            refine ⟨others, rfl, .pointed hSpan, fun rest hRest => ?_⟩
            rw [List.map_cons, List.cons_append, fraction?, spanDigits_map_append symbols hRest,
              hSpan]
      · rw [List.map_cons, fraction?_of_ne hPoint] at hFraction
        cases hFraction
        have hOther : ∀ rest, symbol :: symbols ≠ '.' :: rest := by
          rintro rest ⟨⟩
          exact hPoint rfl
        exact ⟨symbol :: symbols, rfl, .none hOther, fun rest hRest => fraction?_of_ne hPoint _⟩

/-- The digits of a power, behind its sign. -/
private def scanPower (negative : Bool) (symbols : List Symbol) :
    Option (Option Int × List Symbol) :=
  match spanDigits symbols with
  | ([], _) => none
  | (digits, rest) =>
      let power : Int := Decimal.ofDigits digits
      some (some (if negative then -power else power), rest)

private theorem scanPower_append {negative : Bool} {symbols : List Char} {power : Option Int}
    (hPower : scanPower negative (symbols.map Symbol.char) = some (power, [])) :
    ∃ value, power = some value ∧ Decimal.readDigits? negative symbols = some value ∧
      ∀ rest, Delimited rest →
        scanPower negative (symbols.map Symbol.char ++ rest) = some (power, rest) := by
  unfold scanPower Decimal.readDigits? at *
  rw [spanDigits_map] at hPower
  rcases hSpan : Decimal.spanDigits symbols with ⟨digits, others⟩
  rw [hSpan] at hPower
  cases digits with
  | nil => cases hPower
  | cons digit digits =>
      cases others with
      | cons other others => cases hPower
      | nil =>
          cases hPower
          refine ⟨_, rfl, rfl, fun rest hRest => ?_⟩
          rw [spanDigits_map_append symbols hRest, hSpan]
          rfl

private theorem power?_unsigned {mark : Char} (hMark : mark = 'e' ∨ mark = 'E')
    {symbols : List Symbol} (hMinus : ∀ rest, symbols ≠ .char '-' :: rest)
    (hPlus : ∀ rest, symbols ≠ .char '+' :: rest) :
    power? (.char mark :: symbols) = scanPower false symbols := by
  rw [power?, if_pos hMark]
  · rfl
  · exact hMinus
  · exact hPlus

private theorem exists_signed {mark : Char} (hMark : mark = 'e' ∨ mark = 'E')
    (symbols : List Char) :
    ∃ negative digits, Decimal.readPower? symbols = Decimal.readDigits? negative digits ∧
      ∀ rest, Delimited rest → power? (.char mark :: (symbols.map Symbol.char ++ rest)) =
        scanPower negative (digits.map Symbol.char ++ rest) := by
  cases symbols with
  | nil =>
      refine ⟨false, [], rfl, fun rest hRest => ?_⟩
      apply power?_unsigned hMark
      · rintro others rfl
        cases hRest
      · rintro others rfl
        cases hRest
  | cons symbol symbols =>
      by_cases hMinus : symbol = '-'
      · subst hMinus
        refine ⟨true, symbols, rfl, fun rest hRest => ?_⟩
        rw [List.map_cons, List.cons_append, power?, if_pos hMark]
        rfl
      by_cases hPlus : symbol = '+'
      · subst hPlus
        refine ⟨false, symbols, rfl, fun rest hRest => ?_⟩
        rw [List.map_cons, List.cons_append, power?, if_pos hMark]
        rfl
      · refine ⟨false, symbol :: symbols, Decimal.readPower?_unsigned hMinus hPlus symbols,
          fun rest hRest => ?_⟩
        apply power?_unsigned hMark
        · rintro others ⟨⟩
          exact hMinus rfl
        · rintro others ⟨⟩
          exact hPlus rfl

private theorem power?_append {symbols : List Char} {power : Option Int}
    (hPower : power? (symbols.map Symbol.char) = some (power, [])) :
    PowerText symbols power ∧
      ∀ rest, Delimited rest → power? (symbols.map Symbol.char ++ rest) = some (power, rest) := by
  cases symbols with
  | nil =>
      cases hPower
      exact ⟨.none, fun rest => power?_of_delimited⟩
  | cons mark symbols =>
      by_cases hMark : mark = 'e' ∨ mark = 'E'
      · obtain ⟨negative, digits, hSign, hScan⟩ := exists_signed hMark symbols
        have hWhole := hScan [] .nil
        rw [List.append_nil, List.append_nil] at hWhole
        obtain ⟨value, rfl, hRead, hAppend⟩ := scanPower_append (hWhole.symm.trans hPower)
        exact ⟨.marked hMark (hSign.trans hRead),
          fun rest hRest => (hScan rest hRest).trans (hAppend rest hRest)⟩
      · have hNone : power? ((mark :: symbols).map Symbol.char) =
            some (none, (mark :: symbols).map Symbol.char) := if_neg hMark
        rw [hNone] at hPower
        cases hPower

private theorem unsigned?_append {negative : Bool} {symbols : List Char} {literal : NumberLiteral}
    (hLiteral : unsigned? negative (symbols.map Symbol.char) = some (literal, [])) :
    literal.negative = negative ∧ Decimal.read? symbols = some literal.decimal ∧
      ∀ rest, Delimited rest →
        unsigned? negative (symbols.map Symbol.char ++ rest) = some (literal, rest) := by
  rcases hSpan : Decimal.spanDigits symbols with ⟨whole, others⟩
  unfold unsigned? at hLiteral ⊢
  rw [spanDigits_map, hSpan] at hLiteral
  split at hLiteral
  · cases hLiteral
  · cases hLiteral
  · rename_i _ whole' after hNonempty hZero hDigits
    cases hDigits
    obtain ⟨⟨fraction, after⟩, hFraction, hLiteral⟩ := Option.bind_eq_some_iff.1 hLiteral
    obtain ⟨⟨power, after'⟩, hPower, hLiteral⟩ := Option.bind_eq_some_iff.1 hLiteral
    cases hLiteral
    obtain ⟨marked, rfl, hFractionRead, hFractionAppend⟩ := fraction?_append hFraction
    obtain ⟨hPowerRead, hPowerAppend⟩ := power?_append hPower
    refine ⟨rfl, read?_of_parts hSpan hNonempty hFractionRead hPowerRead, fun rest hRest => ?_⟩
    rw [spanDigits_map_append symbols hRest, hSpan]
    split
    · rename_i hNil
      exact absurd (congrArg Prod.fst hNil) hNonempty
    · rename_i hLeading
      exact absurd (congrArg Prod.fst hLeading) (hZero _ _)
    · rename_i hParts
      cases hParts
      dsimp only
      rw [hFractionAppend rest hRest, Option.bind_eq_bind, Option.bind_some]
      dsimp only
      rw [hPowerAppend rest hRest, Option.bind_eq_bind, Option.bind_some]
      rfl

private theorem numberLiteral?_of_ne {first : Char} (hMinus : first ≠ '-') (symbols : List Symbol) :
    numberLiteral? (.char first :: symbols) = unsigned? false (.char first :: symbols) := by
  rw [numberLiteral?]
  rintro rest ⟨⟩
  exact hMinus rfl

/-- A literal is read as the decimal that it writes, and stays a literal in front of whatever
may follow a value. -/
theorem numberLiteral?_append {symbols : List Char} {literal : NumberLiteral}
    (hLiteral : numberLiteral? (symbols.map Symbol.char) = some (literal, [])) :
    (∃ digits, symbols = (if literal.negative then ['-'] else []) ++ digits ∧
      Decimal.read? digits = some literal.decimal) ∧
      ∀ rest, Delimited rest →
        numberLiteral? (symbols.map Symbol.char ++ rest) = some (literal, rest) := by
  cases symbols with
  | nil => cases hLiteral
  | cons first symbols =>
      by_cases hMinus : first = '-'
      · subst hMinus
        obtain ⟨hNegative, hRead, hAppend⟩ := unsigned?_append hLiteral
        rw [hNegative]
        exact ⟨⟨symbols, rfl, hRead⟩, hAppend⟩
      · rw [List.map_cons, numberLiteral?_of_ne hMinus, ← List.map_cons] at hLiteral
        obtain ⟨hNegative, hRead, hAppend⟩ := unsigned?_append hLiteral
        rw [hNegative]
        refine ⟨⟨first :: symbols, rfl, hRead⟩, fun rest hRest => ?_⟩
        rw [List.map_cons, List.cons_append, numberLiteral?_of_ne hMinus]
        exact hAppend rest hRest

theorem read_numeral {token : String} {literal : NumberLiteral} {format : BinaryFormat}
    (hLiteral : numberLiteral? (Utf8.symbolsOfText token) = some (literal, [])) :
    FloatToken.read format token =
      .ok (format.withSign literal.negative (literal.decimal.body format)) := by
  obtain ⟨⟨digits, hSymbols, hRead⟩, -⟩ := numberLiteral?_append hLiteral
  have hBody : FloatToken.readBody? format digits = some (literal.decimal.body format) := by
    rw [FloatToken.readBody?, hRead]
  have hToken := FloatToken.read_signed literal.negative
    (Decimal.exists_unsigned_of_read? hRead) hBody
  rwa [← hSymbols, String.ofList_toList] at hToken

/-! ### Lexemes -/

private theorem lexeme?_numeral {first : Char} {symbols : List Symbol} {literal : NumberLiteral}
    {after : List Symbol}
    (hLiteral : numberLiteral? (.char first :: symbols) = some (literal, after)) :
    isBlank first = false ∧
      lexeme? first symbols = some (.number (Number.ofLiteral? literal), after) := by
  by_cases hMinus : first = '-'
  · subst hMinus
    have hLexeme : lexeme? '-' symbols = (numberLiteral? (.char '-' :: symbols)).map fun found =>
        (.number (Number.ofLiteral? found.1), found.2) := rfl
    rw [hLexeme, hLiteral]
    exact ⟨rfl, rfl⟩
  · rw [numberLiteral?_of_ne hMinus] at hLiteral
    cases hDigit : first.isDigit with
    | true =>
        rw [lexeme?_of_isDigit hDigit, hLiteral]
        exact ⟨isBlank_of_isDigit hDigit, rfl⟩
    | false =>
        rw [unsigned?, spanDigits, Integer.digit?_eq_none_of_isDigit hDigit] at hLiteral
        cases hLiteral

theorem numeral_cutInto {symbols : List Char} {literal : NumberLiteral}
    (hLiteral : numberLiteral? (symbols.map Symbol.char) = some (literal, [])) :
    CutInto symbols [.number (Number.ofLiteral? literal)] := by
  intro rest found hDelimited hRest
  obtain ⟨-, hAppend⟩ := numberLiteral?_append hLiteral
  cases symbols with
  | nil => cases hLiteral
  | cons first symbols =>
      obtain ⟨hBlank, hLexeme⟩ := lexeme?_numeral (hAppend rest hDelimited)
      exact lex?_lexeme hBlank hLexeme hRest

end AnnotationDefaults.Json
