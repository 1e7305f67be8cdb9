import AnnotationDefaults.Proofs.Expectation.Layout
import AnnotationDefaults.Proofs.Json.Layout
import AnnotationDefaults.Proofs.Json.Numbers
import AnnotationDefaults.Proofs.Number.Narrowing

set_option autoImplicit false

/-!
Number tokens against text tokens. A number in a specification becomes the token that its
held value is written as, so at the wide format it is read as the text of the literal is, and
at the narrow one it is rounded twice. The two readings differ only where the double that holds
the number lies halfway between two neighbours of the narrow format, and there exactly if the
literal and the shortest text of the double are on different sides of it.
-/

namespace AnnotationDefaults

open Utf8 (symbolsOfText)

namespace Json.Number

variable {literal : NumberLiteral} {number : Number}

/-- An integer stands for itself; a double has to be the one nearest to the literal. -/
def IsNearest (literal : NumberLiteral) : Number → Prop
  | .integer _ => True
  | .double bits =>
      BinaryFormat.double.Rounds literal.decimal.value (BinaryFormat.double.body bits)

theorem body_double_eq (hNumber : ofLiteral? literal = some number)
    (hNearest : number.IsNearest literal) :
    literal.decimal.body .double = number.decimal.body .double := by
  rcases ofLiteral?_eq_some hNumber with ⟨rfl, -, hFraction, hPower⟩ | hDouble
  · have hDecimal : literal.decimal = ⟨Decimal.ofDigits literal.whole, 0⟩ := by
      rw [NumberLiteral.decimal, hFraction, hPower, Decimal.ofParts, Option.getD_none,
        Option.getD_none, List.append_nil]
      rfl
    rw [hDecimal, decimal_ofSign]
  · obtain ⟨body, hFinite, rfl⟩ := double?_eq_some hDouble
    have hBody := FloatToken.body_withSign literal.negative
      (hFinite.trans (FloatToken.infinity_lt_signWeight _))
    have hHeld := (literal.decimal.rounds_body (by decide)).unique hNearest
    rw [hHeld, decimal, hBody, Decimal.shortest_body _ (by decide) hFinite]

end Json.Number

namespace Spec

def tokenDocument (tag : Char) (token : List Char) : String :=
  String.ofList (Json.openBrace :: (Json.stringLiteral "tag" ++ ':' ::
    (Json.stringLiteral tag.toString ++ ',' :: (Json.stringLiteral "values" ++ ':' :: '[' ::
      (token ++ [']', Json.closeBrace])))))

variable {token : List Char} {value : SpecToken}

private theorem tokenDocument_cutInto (tag : Char)
    (hToken : Json.CutInto token (Json.lexemes (tokenToJson value))) :
    Json.CutInto (tokenDocument tag token).toList (Json.lexemes (toJson (.mk tag [value]))) := by
  have hEnd : Json.CutInto [']', Json.closeBrace] [.closeArray, .closeObject] :=
    .mark rfl (fun _ => rfl) (.mark rfl (fun _ => rfl) Json.cutInto_nil)
  have hValues := hToken.append hEnd fun rest => .bracket _
  have hLexemes : Json.lexemes (toJson (.mk tag [value])) = .openObject :: .string (some "tag") ::
      .colon :: .string (some tag.toString) :: .comma :: .string (some "values") :: .colon ::
        .openArray :: (Json.lexemes (tokenToJson value) ++ [.closeArray, .closeObject]) := by
    simp only [toJson, tokensToJson, Json.lexemes, Json.lexemesOfItems, Json.lexemesOfMembers,
      List.cons_append, List.nil_append, List.append_assoc]
  rw [tokenDocument, String.toList_ofList, hLexemes]
  apply Json.CutInto.mark rfl fun _ => rfl
  apply Json.CutInto.literal
  apply Json.CutInto.mark rfl fun _ => rfl
  apply Json.CutInto.literal
  apply Json.CutInto.mark rfl fun _ => rfl
  apply Json.CutInto.literal
  apply Json.CutInto.mark rfl fun _ => rfl
  exact Json.CutInto.mark rfl (fun _ => rfl) hValues

theorem ofSymbols_tokenDocument {content : String} (kind : LiteralTag)
    (hToken : Json.CutInto token (Json.lexemes (tokenToJson value)))
    (hContent : value.scalarText? = some content) :
    ExpectedElement.ofSymbols (symbolsOfText (tokenDocument kind.symbol token)) =
      .ok (.literal kind content) := by
  have hNesting : (toJson (.mk kind.symbol [value])).nesting ≤ nestingLimit := by
    have hFlat : Json.nestingOfItems (tokensToJson [value]) = 0 := by
      cases value with
      | nested spec => cases hContent
      | pair name spec => cases hContent
      | _ => rfl
    rw [nesting_toJson, hFlat]
    decide
  have hParsed : Spec.parse? (symbolsOfText (tokenDocument kind.symbol token)) =
      some (.mk kind.symbol [value]) := by
    rw [Spec.parse?, Json.Tree.parse?_of_cutInto (tokenDocument_cutInto kind.symbol hToken),
      Option.bind_eq_bind, Option.bind_some, ofTree?_ofJson, if_pos hNesting]
  rw [ExpectedElement.ofSymbols, hParsed]
  refine compile_literal_eq_ok_iff.2 ⟨content, ?_, rfl⟩
  rw [SpecToken.single, hContent]

end Spec

namespace Scalar

/-- The kinds of floating-point literals, their formats and the values of their patterns. -/
inductive IsFloating : LiteralTag → BinaryFormat → (Nat → Scalar) → Prop
  | float : IsFloating .float .single fun bits => .float (UInt32.ofNat bits)
  | double : IsFloating .double .double fun bits => .double (UInt64.ofNat bits)

namespace IsFloating

variable {kind : LiteralTag} {format : BinaryFormat} {ofBits : Nat → Scalar} {body other : Nat}

theorem two_le_fraction (hFloating : IsFloating kind format ofBits) : 2 ≤ format.fractionBits := by
  cases hFloating with
  | float => decide
  | double => decide

theorem ofToken_eq (hFloating : IsFloating kind format ofBits) {token : String} {bits : Nat}
    (hRead : FloatToken.read format token = .ok bits) :
    ofToken kind token = .ok (ofBits bits) := by
  cases hFloating with
  | float =>
      rw [ofToken, readToken, ofFloatToken, hRead]
      rfl
  | double =>
      rw [ofToken, readToken, ofFloatToken, hRead]
      rfl

theorem ofBits_injective (hFloating : IsFloating kind format ofBits) {first second : Nat}
    (hFirst : first < 2 * format.signWeight) (hSecond : second < 2 * format.signWeight)
    (hBits : ofBits first = ofBits second) : first = second := by
  cases hFloating with
  | float =>
      have hNats := congrArg UInt32.toNat (Scalar.float.inj hBits)
      rwa [UInt32.toNat_ofNat_of_lt' hFirst, UInt32.toNat_ofNat_of_lt' hSecond] at hNats
  | double =>
      have hNats := congrArg UInt64.toNat (Scalar.double.inj hBits)
      rwa [UInt64.toNat_ofNat_of_lt' hFirst, UInt64.toNat_ofNat_of_lt' hSecond] at hNats

theorem ofBits_withSign_eq_iff (hFloating : IsFloating kind format ofBits) (negative : Bool)
    (hBody : body ≤ format.infinity) (hOther : other ≤ format.infinity) :
    ofBits (format.withSign negative body) = ofBits (format.withSign negative other) ↔
      body = other := by
  have hBodyLess := hBody.trans_lt (FloatToken.infinity_lt_signWeight format)
  have hOtherLess := hOther.trans_lt (FloatToken.infinity_lt_signWeight format)
  constructor
  · intro hBits
    have hPatterns := hFloating.ofBits_injective (FloatToken.withSign_lt negative hBodyLess)
      (FloatToken.withSign_lt negative hOtherLess) hBits
    rw [← FloatToken.body_withSign negative hBodyLess, hPatterns,
      FloatToken.body_withSign negative hOtherLess]
  · rintro rfl
    rfl

end IsFloating

end Scalar

namespace Spec

/-- A number token and the text token of its literal. Each is read as the decimal that it
writes, correctly rounded. At the wide format the two agree; at the narrow one they agree
exactly if no halfway point that is the held double itself lies between their decimals. -/
theorem number_token_agrees_iff {token : String} {literal : Json.NumberLiteral}
    {number : Json.Number}
    (hLiteral : Json.numberLiteral? (symbolsOfText token) = some (literal, []))
    (hNumber : Json.Number.ofLiteral? literal = some number)
    (hNearest : number.IsNearest literal) :
    (∀ kind : LiteralTag,
      ExpectedElement.ofSymbols (symbolsOfText (tokenDocument kind.symbol token.toList)) =
        .ok (.literal kind number.text) ∧
      ExpectedElement.ofSymbols
        (symbolsOfText (tokenDocument kind.symbol (Json.stringLiteral token))) =
          .ok (.literal kind token)) ∧
    (∀ kind format ofBits, Scalar.IsFloating kind format ofBits →
      ∃ written held, format.Rounds literal.decimal.value written ∧
        format.Rounds number.decimal.value held ∧
        Scalar.ofToken kind token = .ok (ofBits (format.withSign literal.negative written)) ∧
        Scalar.ofToken kind number.text = .ok (ofBits (format.withSign literal.negative held))) ∧
    Scalar.ofToken .double number.text = Scalar.ofToken .double token ∧
    (Scalar.ofToken .float number.text = Scalar.ofToken .float token ↔
      ∀ below < BinaryFormat.single.infinity,
        BinaryFormat.single.halfway below =
          BinaryFormat.double.value (literal.decimal.body .double) →
        (BinaryFormat.single.RoundsWithin literal.decimal.value below ↔
          BinaryFormat.single.RoundsWithin number.decimal.value below)) := by
  have hBodies := Json.Number.body_double_eq hNumber hNearest
  have hNumberCut : Json.CutInto token.toList (Json.lexemes (tokenToJson (.number number))) := by
    have hCut := Json.numeral_cutInto hLiteral
    rwa [hNumber] at hCut
  have hTextCut : Json.CutInto (Json.stringLiteral token)
      (Json.lexemes (tokenToJson (.text token))) := Json.string_cutInto token
  have hText {kind format ofBits} (hFloating : Scalar.IsFloating kind format ofBits) :=
    hFloating.ofToken_eq (Json.read_numeral hLiteral)
  have hHeld {kind format ofBits} (hFloating : Scalar.IsFloating kind format ofBits) :=
    hFloating.ofToken_eq (Json.Number.read_text hNumber hFloating.two_le_fraction)
  refine ⟨fun kind => ⟨ofSymbols_tokenDocument kind hNumberCut rfl,
    ofSymbols_tokenDocument kind hTextCut rfl⟩, ?_, ?_, ?_⟩
  · intro kind format ofBits hFloating
    exact ⟨_, _, literal.decimal.rounds_body hFloating.two_le_fraction,
      number.decimal.rounds_body hFloating.two_le_fraction, hText hFloating, hHeld hFloating⟩
  · rw [hHeld .double, hText .double, hBodies]
  · rw [← Decimal.body_eq_iff_of_refines BinaryFormat.double_refines_single hBodies, hHeld .float,
      hText .float, Except.ok.injEq, Scalar.IsFloating.float.ofBits_withSign_eq_iff _
        number.decimal.body_le_infinity literal.decimal.body_le_infinity]
    exact eq_comm

/-- A literal whose nearest double lies halfway between two neighbours of the narrow format. -/
def halfwayLiteral : Json.NumberLiteral :=
  ⟨false, [1], some [0, 0, 0, 0, 0, 0, 0, 5, 9, 6, 0, 4, 6, 4, 4, 7], none⟩

def halfwayNumber : Json.Number := .double 0x3ff0000010000000

theorem number_token_rounded_twice :
    Scalar.ofToken .float "1.0000000596046447" = .ok (.float 0x3f800000) ∧
    Scalar.ofToken .float halfwayNumber.text = .ok (.float 0x3f800001) ∧
    ∃ below < BinaryFormat.single.infinity,
      BinaryFormat.single.halfway below =
        BinaryFormat.double.value (halfwayLiteral.decimal.body .double) ∧
      ¬ (BinaryFormat.single.RoundsWithin halfwayLiteral.decimal.value below ↔
        BinaryFormat.single.RoundsWithin halfwayNumber.decimal.value below) := by
  have hLiteral : Json.numberLiteral? (symbolsOfText "1.0000000596046447") =
      some (halfwayLiteral, []) := by decide +kernel
  have hNumber : Json.Number.ofLiteral? halfwayLiteral = some halfwayNumber := by decide +kernel
  have hBody : halfwayLiteral.decimal.body .double =
      BinaryFormat.double.body 0x3ff0000010000000 := by decide +kernel
  have hNearest : halfwayNumber.IsNearest halfwayLiteral := by
    rw [halfwayNumber, Json.Number.IsNearest, ← hBody]
    exact halfwayLiteral.decimal.rounds_body (by decide)
  have hText : Scalar.ofToken .float "1.0000000596046447" = .ok (.float 0x3f800000) := by
    decide +kernel
  have hHeld : Scalar.ofToken .float halfwayNumber.text = .ok (.float 0x3f800001) := by
    decide +kernel
  have hApart : Scalar.ofToken .float halfwayNumber.text ≠
      Scalar.ofToken .float "1.0000000596046447" := by
    rw [hText, hHeld]
    decide
  obtain ⟨-, -, -, hSides⟩ := number_token_agrees_iff hLiteral hNumber hNearest
  refine ⟨hText, hHeld, ?_⟩
  by_contra hNone
  refine hApart (hSides.2 fun below hBelow hHalfway => ?_)
  by_contra hSide
  exact hNone ⟨below, hBelow, hHalfway, hSide⟩

end Spec

end AnnotationDefaults
