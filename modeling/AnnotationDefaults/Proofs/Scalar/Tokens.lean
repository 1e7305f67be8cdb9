import AnnotationDefaults.Proofs.Number.ReadBack
import AnnotationDefaults.Proofs.Success
import AnnotationDefaults.Proofs.Text.Hexadecimal
import AnnotationDefaults.Scalar.Token

set_option autoImplicit false

/-!
Tokens and values determine each other. The token of a value of a kind is read as a
value that agrees with it; a value that agrees with some token's has a token of its
own; and values that agree have the same token. So one token stands for one class of
agreeing values, at each of the nine kinds.
-/

namespace AnnotationDefaults

namespace Scalar

/-! ### Values of a kind -/

/-- The value is kept at the width of the kind. -/
def HasKind : LiteralTag → Scalar → Prop
  | .long, .long _ => True
  | .float, .float _ => True
  | .double, .double _ => True
  | .string, .text _ => True
  | .byte, .int _ => True
  | .char, .int _ => True
  | .short, .int _ => True
  | .boolean, .int _ => True
  | .int, .int _ => True
  | _, _ => False

theorem resolve_hasKind {pool : ConstantPool} {kind : LiteralTag} {index : UInt16}
    {value : Scalar} (hValue : resolve pool kind index = .ok value) : HasKind kind value := by
  cases kind
  all_goals
    obtain ⟨stored, -, rfl⟩ := map_eq_ok_iff.1 hValue
    trivial

theorem agrees_refl (value : Scalar) : value.agrees value = true := by
  cases value with
  | int value => exact beq_self_eq_true value
  | long value => exact beq_self_eq_true value
  | float bits => simp only [agrees, BinaryFormat.agree, beq_self_eq_true, Bool.or_true]
  | double bits => simp only [agrees, BinaryFormat.agree, beq_self_eq_true, Bool.or_true]
  | text content => exact beq_self_eq_true content

theorem toToken_of_agrees (kind : LiteralTag) {left right : Scalar}
    (hAgree : left.agrees right = true) : left.toToken kind = right.toToken kind := by
  cases left with
  | int value =>
      cases right with
      | int value' => rw [eq_of_beq hAgree]
      | _ => cases hAgree
  | long value =>
      cases right with
      | long value' => rw [eq_of_beq hAgree]
      | _ => cases hAgree
  | float bits =>
      cases right with
      | float bits' =>
          rw [toToken, toToken]
          exact congrArg Except.ok (FloatToken.text_of_agree hAgree)
      | _ => cases hAgree
  | double bits =>
      cases right with
      | double bits' =>
          rw [toToken, toToken]
          exact congrArg Except.ok (FloatToken.text_of_agree hAgree)
      | _ => cases hAgree
  | text content =>
      cases right with
      | text content' => rw [eq_of_beq hAgree]
      | _ => cases hAgree

/-! ### Units of text -/

theorem charUnit?_charToken {unit : Nat} (hUnit : unit < 0x10000) :
    charUnit? (charToken unit).toList = some unit := by
  by_cases hValid : unit.isValidChar
  · have hCode := toNat_ofNat_of_isValidChar hValid
    rw [charToken, if_pos hValid, String.toList_ofList]
    simp only [charUnit?, hCode, if_pos hUnit]
  · have hRead := Hex.read?_fixed .upper 4 unit
    have hFits : unit % 16 ^ 4 = unit := by omega
    rw [hFits] at hRead
    rw [charToken, if_neg hValid, String.toList_ofList]
    exact hRead

theorem lt_of_charUnit?_eq_some {symbols : List Char} {unit : Nat}
    (hUnit : charUnit? symbols = some unit) : unit < 0x10000 := by
  unfold charUnit? at hUnit
  split at hUnit
  · split at hUnit
    · cases hUnit
      assumption
    · cases hUnit
  · split at hUnit
    · have hLess := Hex.lt_of_read?_eq_some hUnit
      simp only [List.length_cons, List.length_nil] at hLess
      omega
    · cases hUnit
  · cases hUnit

/-! ### Integer kinds -/

private theorem readToken_render {width : Nat} {value : Int32}
    (hFits : Integer.Fits width value.toInt) :
    (ofIntegerToken width (Integer.render value.toInt)).map
      (fun found => Scalar.int (Int32.ofInt found)) = .ok (.int value) := by
  rw [ofIntegerToken, Integer.read_render hFits, Except.mapError, Except.map, Int32.ofInt_toInt]

private theorem fits_int32 (value : Int32) : Integer.Fits 32 value.toInt :=
  ⟨value.le_toInt, value.toInt_lt⟩

private theorem fits_int64 (value : Int64) : Integer.Fits 64 value.toInt :=
  ⟨value.le_toInt, value.toInt_lt⟩

private theorem toInt_of_fits {width : Nat} {value : Int} (hWidth : width ≤ 32)
    (hFits : Integer.Fits width value) : (Int32.ofInt value).toInt = value := by
  have hPower : (2 : Int) ^ (width - 1) ≤ 2 ^ 31 := by
    exact_mod_cast Nat.pow_le_pow_right (n := 2) (by omega) (by omega : width - 1 ≤ 31)
  unfold Integer.Fits at hFits
  exact Int32.toInt_ofInt_of_le (by omega) (by omega)

private theorem readToken_integerToken {kind : LiteralTag} {value : Int32} {token : String}
    (hKind : HasKind kind (.int value)) (hToken : integerToken kind value.toInt = .ok token) :
    readToken kind token = .ok (.int value) := by
  cases kind with
  | byte =>
      simp only [integerToken] at hToken
      split at hToken
      · cases hToken
        exact readToken_render ‹_›
      · cases hToken
  | short =>
      simp only [integerToken] at hToken
      split at hToken
      · cases hToken
        exact readToken_render ‹_›
      · cases hToken
  | int =>
      cases hToken
      exact readToken_render (fits_int32 value)
  | boolean =>
      simp only [integerToken] at hToken
      split at hToken
      · cases hToken
        have hZero : value = 0 := Int32.toInt_inj.1 ‹_›
        rw [hZero]
        rfl
      · split at hToken
        · cases hToken
          have hOne : value = 1 := Int32.toInt_inj.1 ‹_›
          rw [hOne]
          rfl
        · cases hToken
  | char =>
      simp only [integerToken] at hToken
      split at hToken
      · rename_i hRange
        cases hToken
        have hUnit : value.toInt.toNat < 0x10000 := by omega
        have hValue : Int32.ofNat value.toInt.toNat = value := by
          rw [← Int32.ofInt_eq_ofNat, Int.toNat_of_nonneg hRange.1, Int32.ofInt_toInt]
        rw [readToken, charUnit?_charToken hUnit]
        exact congrArg (fun found => Except.ok (Scalar.int found)) hValue
      · cases hToken
  | _ => cases hKind

private theorem exists_integerToken {kind : LiteralTag} {value : Int32} {token : String}
    (hRead : readToken kind token = .ok (.int value)) :
    ∃ written, integerToken kind value.toInt = .ok written := by
  cases kind with
  | byte =>
      obtain ⟨found, hFound, hValue⟩ := map_eq_ok_iff.1 hRead
      cases hValue
      have hFits := Integer.read_fits (mapError_eq_ok_iff.1 hFound)
      rw [toInt_of_fits (by omega) hFits, integerToken, if_pos hFits]
      exact ⟨_, rfl⟩
  | short =>
      obtain ⟨found, hFound, hValue⟩ := map_eq_ok_iff.1 hRead
      cases hValue
      have hFits := Integer.read_fits (mapError_eq_ok_iff.1 hFound)
      rw [toInt_of_fits (by omega) hFits, integerToken, if_pos hFits]
      exact ⟨_, rfl⟩
  | boolean =>
      simp only [readToken] at hRead
      split at hRead
      · cases hRead
        exact ⟨_, rfl⟩
      · split at hRead
        · cases hRead
          exact ⟨_, rfl⟩
        · cases hRead
  | char =>
      simp only [readToken] at hRead
      split at hRead
      · rename_i unit hUnit
        cases hRead
        have hLess := lt_of_charUnit?_eq_some hUnit
        have hCode : (Int32.ofNat unit).toInt = unit := Int32.toInt_ofNat_of_lt (by omega)
        rw [hCode, integerToken, if_pos ⟨by omega, by omega⟩]
        exact ⟨_, rfl⟩
      · cases hRead
  | _ => exact ⟨_, rfl⟩

/-! ### All kinds -/

theorem exists_ofToken {kind : LiteralTag} {value : Scalar} {token : String}
    (hKind : HasKind kind value) (hToken : value.toToken kind = .ok token) :
    ∃ found, ofToken kind token = .ok found ∧ value.agrees found = true := by
  suffices hRead : ∃ found, readToken kind token = .ok found ∧ value.agrees found = true by
    rcases hRead with ⟨found, hFound, hAgree⟩
    exact ⟨found, mapError_eq_ok_iff.2 hFound, hAgree⟩
  cases value with
  | int value => exact ⟨.int value, readToken_integerToken hKind hToken, agrees_refl _⟩
  | long value =>
      cases kind with
      | long =>
          cases hToken
          refine ⟨.long value, ?_, agrees_refl _⟩
          rw [readToken, ofIntegerToken, Integer.read_render (fits_int64 value), Except.mapError,
            Except.map, Int64.ofInt_toInt]
      | _ => cases hKind
  | float bits =>
      cases kind with
      | float =>
          cases hToken
          have hBits : bits.toNat < 2 * BinaryFormat.single.signWeight := bits.toNat_lt
          obtain ⟨found, hFound, hLess, hAgree⟩ :=
            FloatToken.read_text tokenLayout (by decide) hBits
          refine ⟨.float (UInt32.ofNat found), ?_, ?_⟩
          · rw [readToken, ofFloatToken, hFound]
            rfl
          · rw [agrees, UInt32.toNat_ofNat_of_lt' hLess]
            exact hAgree
      | _ => cases hKind
  | double bits =>
      cases kind with
      | double =>
          cases hToken
          have hBits : bits.toNat < 2 * BinaryFormat.double.signWeight := bits.toNat_lt
          obtain ⟨found, hFound, hLess, hAgree⟩ :=
            FloatToken.read_text tokenLayout (by decide) hBits
          refine ⟨.double (UInt64.ofNat found), ?_, ?_⟩
          · rw [readToken, ofFloatToken, hFound]
            rfl
          · rw [agrees, UInt64.toNat_ofNat_of_lt' hLess]
            exact hAgree
      | _ => cases hKind
  | text content =>
      cases kind with
      | string =>
          cases hToken
          exact ⟨.text _, rfl, agrees_refl _⟩
      | _ => cases hKind

theorem exists_toToken {kind : LiteralTag} {value wanted : Scalar} {token : String}
    (hWanted : ofToken kind token = .ok wanted) (hAgree : value.agrees wanted = true) :
    ∃ written, value.toToken kind = .ok written := by
  rw [toToken_of_agrees kind hAgree]
  cases wanted with
  | int wanted => exact exists_integerToken (mapError_eq_ok_iff.1 hWanted)
  | _ => exact ⟨_, rfl⟩

/-- A value of the kind has a token exactly if some token is read as a value that agrees with
it, and the token that it has is one of those. -/
theorem toToken_exists_iff_and_reads_back {kind : LiteralTag} {value : Scalar}
    (hKind : HasKind kind value) :
    ((∃ token, value.toToken kind = .ok token) ↔
      ∃ token found, ofToken kind token = .ok found ∧ value.agrees found = true) ∧
    ∀ token, value.toToken kind = .ok token →
      ∃ found, ofToken kind token = .ok found ∧ value.agrees found = true := by
  constructor
  · constructor
    · intro hGiven
      obtain ⟨token, hToken⟩ := hGiven
      exact ⟨token, exists_ofToken hKind hToken⟩
    · intro hGiven
      obtain ⟨token, found, hFound, hAgree⟩ := hGiven
      exact exists_toToken hFound hAgree
  · intro token hToken
    exact exists_ofToken hKind hToken

/-- A surrogate, which is no character, has the escape as its token and is read from it. -/
theorem toToken_reads_back_surrogate :
    HasKind .char (.int 0xd800) ∧ (Scalar.int 0xd800).toToken .char = .ok "\\uD800" ∧
      ∃ found, ofToken .char "\\uD800" = .ok found ∧
        (Scalar.int 0xd800).agrees found = true := by
  have hKind : HasKind .char (.int 0xd800) := trivial
  have hToken : (Scalar.int 0xd800).toToken .char = .ok "\\uD800" := by decide
  exact ⟨hKind, hToken, (toToken_exists_iff_and_reads_back hKind).2 _ hToken⟩

end Scalar

end AnnotationDefaults
