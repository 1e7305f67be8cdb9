import AnnotationDefaults.Proofs.Success
import AnnotationDefaults.Proofs.Text.Hexadecimal
import AnnotationDefaults.Text.ModifiedUtf8

set_option autoImplicit false

/-!
Class-file text reads back. A text's units pair up again as its characters, since no
character is a surrogate by itself, and the bytes of a unit are read as that unit, so the
modified form of a text denotes the text.
-/

namespace AnnotationDefaults

namespace Utf16

theorem decode_cons_of_not_high {unit : UInt16} (hUnit : ¬ IsHigh unit) (rest : List UInt16) :
    decode (unit :: rest) = loneChar unit :: decode rest := by
  cases rest with
  | nil => rfl
  | cons second rest => rw [decode, if_neg fun hBoth => hUnit hBoth.1]

theorem decode_cons_pair {high low : UInt16} (hHigh : IsHigh high) (hLow : IsLow low)
    (rest : List UInt16) : decode (high :: low :: rest) = pairChar high low :: decode rest := by
  rw [decode, if_pos ⟨hHigh, hLow⟩]

private theorem decode_basic {code : Nat} (hBasic : code < 0x10000) (hValid : code.isValidChar)
    (rest : List UInt16) :
    decode (UInt16.ofNat code :: rest) = Char.ofNat code :: decode rest := by
  have hUnit : (UInt16.ofNat code).toNat = code := UInt16.toNat_ofNat_of_lt' hBasic
  have hPlain : ¬ IsHigh (UInt16.ofNat code) ∧ ¬ IsLow (UInt16.ofNat code) := by
    unfold IsHigh IsLow
    rw [hUnit]
    rcases hValid with hLess | hAbove
    · omega
    · omega
  rw [decode_cons_of_not_high hPlain.1, loneChar, if_neg (not_or.2 hPlain), hUnit]

private theorem decode_supplementary {code : Nat} (hBeyond : ¬ code < 0x10000)
    (hValid : code.isValidChar) (rest : List UInt16) :
    decode (UInt16.ofNat (0xd800 + (code - 0x10000) / 0x400) ::
      UInt16.ofNat (0xdc00 + (code - 0x10000) % 0x400) :: rest) =
        Char.ofNat code :: decode rest := by
  have hCode : code < 0x110000 := by
    rcases hValid with hLess | hAbove
    · omega
    · exact hAbove.2
  have hFirst : (UInt16.ofNat (0xd800 + (code - 0x10000) / 0x400)).toNat =
      0xd800 + (code - 0x10000) / 0x400 :=
    UInt16.toNat_ofNat_of_lt' (show _ < 0x10000 by omega)
  have hSecond : (UInt16.ofNat (0xdc00 + (code - 0x10000) % 0x400)).toNat =
      0xdc00 + (code - 0x10000) % 0x400 :=
    UInt16.toNat_ofNat_of_lt' (show _ < 0x10000 by omega)
  have hHigh : IsHigh (UInt16.ofNat (0xd800 + (code - 0x10000) / 0x400)) := by
    unfold IsHigh
    omega
  have hLow : IsLow (UInt16.ofNat (0xdc00 + (code - 0x10000) % 0x400)) := by
    unfold IsLow
    omega
  have hSum : 0x10000 + (0xd800 + (code - 0x10000) / 0x400 - 0xd800) * 0x400 +
      (0xdc00 + (code - 0x10000) % 0x400 - 0xdc00) = code := by
    omega
  rw [decode_cons_pair hHigh hLow, pairChar, hFirst, hSecond, hSum]

theorem decode_ofChar_append (symbol : Char) (rest : List UInt16) :
    decode (ofChar symbol ++ rest) = symbol :: decode rest := by
  have hValid : symbol.toNat.isValidChar := symbol.valid
  have hSymbol : Char.ofNat symbol.toNat = symbol := Char.ofNat_toNat symbol
  unfold ofChar
  dsimp only
  by_cases hBasic : symbol.toNat < 0x10000
  · rw [if_pos hBasic, List.singleton_append, decode_basic hBasic hValid, hSymbol]
  · rw [if_neg hBasic]
    exact (decode_supplementary hBasic hValid rest).trans (by rw [hSymbol])

theorem decode_encode (content : List Char) : decode (encode content) = content := by
  induction content with
  | nil => rfl
  | cons symbol rest ih =>
      rw [encode, List.flatMap_cons, decode_ofChar_append]
      exact congrArg (symbol :: ·) ih

end Utf16

namespace ModifiedUtf8

private theorem low_toNat (value : Nat) :
    (UInt8.ofNat (0x80 + value % 64)).toNat = 0x80 + value % 64 :=
  UInt8.toNat_ofNat_of_lt' (show _ < 256 by omega)

private theorem low_isContinuation (value : Nat) :
    IsContinuation (UInt8.ofNat (0x80 + value % 64)) := by
  unfold IsContinuation
  rw [low_toNat]
  omega

private theorem decodeUnits_one {value : Nat} (hValue : 0x01 ≤ value ∧ value ≤ 0x7f)
    (offset : Nat) (rest : List UInt8) :
    decodeUnits offset (UInt8.ofNat value :: rest) =
      (decodeUnits (offset + 1) rest).map (UInt16.ofNat value :: ·) := by
  have hLead : (UInt8.ofNat value).toNat = value := UInt8.toNat_ofNat_of_lt' (show _ < 256 by omega)
  have hForm : form? (UInt8.ofNat value) = some .one := by
    simp only [form?, hLead, if_pos hValue]
  rw [decodeUnits.eq_def]
  dsimp only
  rw [hForm, hLead]

private theorem decodeUnits_two {value : Nat} (hValue : value ≤ 0x7ff) (offset : Nat)
    (rest : List UInt8) :
    decodeUnits offset (UInt8.ofNat (0xc0 + value / 64) :: UInt8.ofNat (0x80 + value % 64) ::
      rest) = (decodeUnits (offset + 2) rest).map (UInt16.ofNat value :: ·) := by
  have hLead : (UInt8.ofNat (0xc0 + value / 64)).toNat = 0xc0 + value / 64 :=
    UInt8.toNat_ofNat_of_lt' (show _ < 256 by omega)
  have hNotOne : ¬ (0x01 ≤ 0xc0 + value / 64 ∧ 0xc0 + value / 64 ≤ 0x7f) := by omega
  have hTwo : 0xc0 ≤ 0xc0 + value / 64 ∧ 0xc0 + value / 64 ≤ 0xdf := by omega
  have hForm : form? (UInt8.ofNat (0xc0 + value / 64)) = some .two := by
    simp only [form?, hLead, if_neg hNotOne, if_pos hTwo]
  have hUnit : (0xc0 + value / 64) % 32 * 64 + (0x80 + value % 64) % 64 = value := by omega
  rw [decodeUnits, hForm]
  dsimp only
  rw [if_pos (low_isContinuation value), unitOfTwo, hLead, low_toNat, hUnit]

private theorem decodeUnits_three {value : Nat} (hLow : 0x7ff < value) (hValue : value < 0x10000)
    (offset : Nat) (rest : List UInt8) :
    decodeUnits offset (UInt8.ofNat (0xe0 + value / 4096) ::
      UInt8.ofNat (0x80 + value / 64 % 64) :: UInt8.ofNat (0x80 + value % 64) :: rest) =
        (decodeUnits (offset + 3) rest).map (UInt16.ofNat value :: ·) := by
  have hLead : (UInt8.ofNat (0xe0 + value / 4096)).toNat = 0xe0 + value / 4096 :=
    UInt8.toNat_ofNat_of_lt' (show _ < 256 by omega)
  have hNotOne : ¬ (0x01 ≤ 0xe0 + value / 4096 ∧ 0xe0 + value / 4096 ≤ 0x7f) := by omega
  have hNotTwo : ¬ (0xc0 ≤ 0xe0 + value / 4096 ∧ 0xe0 + value / 4096 ≤ 0xdf) := by omega
  have hThree : 0xe0 ≤ 0xe0 + value / 4096 ∧ 0xe0 + value / 4096 ≤ 0xef := by omega
  have hForm : form? (UInt8.ofNat (0xe0 + value / 4096)) = some .three := by
    simp only [form?, hLead, if_neg hNotOne, if_neg hNotTwo, if_pos hThree]
  have hUnit : (0xe0 + value / 4096) % 16 * 4096 + (0x80 + value / 64 % 64) % 64 * 64 +
      (0x80 + value % 64) % 64 = value := by
    omega
  rw [decodeUnits, hForm]
  dsimp only
  rw [if_pos (low_isContinuation (value / 64)), if_pos (low_isContinuation value), unitOfThree,
    hLead, low_toNat, low_toNat, hUnit]

theorem decodeUnits_encodeUnit_append (unit : UInt16) (offset : Nat) (rest : List UInt8) :
    decodeUnits offset (encodeUnit unit ++ rest) =
      (decodeUnits (offset + (encodeUnit unit).length) rest).map (unit :: ·) := by
  have hUnit : UInt16.ofNat unit.toNat = unit := UInt16.ofNat_toNat
  have hBound : unit.toNat < 0x10000 := unit.toNat_lt
  unfold encodeUnit
  dsimp only
  by_cases hOne : 0x01 ≤ unit.toNat ∧ unit.toNat ≤ 0x7f
  · rw [if_pos hOne]
    exact (decodeUnits_one hOne offset rest).trans (by rw [hUnit]; rfl)
  · rw [if_neg hOne]
    by_cases hTwo : unit.toNat ≤ 0x7ff
    · rw [if_pos hTwo]
      exact (decodeUnits_two hTwo offset rest).trans (by rw [hUnit]; rfl)
    · rw [if_neg hTwo]
      exact (decodeUnits_three (Nat.not_le.1 hTwo) hBound offset rest).trans (by rw [hUnit]; rfl)

theorem decodeUnits_flatMap_encodeUnit (units : List UInt16) (offset : Nat) :
    decodeUnits offset (units.flatMap encodeUnit) = .ok units := by
  induction units generalizing offset with
  | nil => rfl
  | cons unit rest ih =>
      rw [List.flatMap_cons, decodeUnits_encodeUnit_append, ih]
      rfl

theorem decode_encode (content : String) : decode (encode content) = .ok content := by
  rw [decode, encode, decodeUnits_flatMap_encodeUnit]
  refine map_eq_ok_iff.2 ⟨_, rfl, ?_⟩
  rw [Utf16.decode_encode, String.ofList_toList]

end ModifiedUtf8

end AnnotationDefaults
