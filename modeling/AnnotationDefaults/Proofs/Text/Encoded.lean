import AnnotationDefaults.Proofs.Text.Hexadecimal
import AnnotationDefaults.Text.Utf8

set_option autoImplicit false

/-!
The bytes of a text read back. A text written as UTF-8 is cut into exactly its
characters, so nothing of a printed text is lost on its way through a file.
-/

namespace AnnotationDefaults

namespace Utf8

def encode (content : String) : List UInt8 := content.toUTF8.data.toList

theorem encode_eq_flatMap (content : String) :
    encode content = content.toList.flatMap String.utf8EncodeChar := by
  rw [encode, String.toUTF8_eq_toByteArray, ← String.utf8Encode_toList, List.utf8Encode]
  exact List.toList_data_toByteArray

theorem symbolsAfter_append (owed rest : List UInt8) :
    symbolsAfter owed.length (owed ++ rest) = symbolsAfter 0 rest := by
  induction owed with
  | nil => rfl
  | cons byte owed ih => exact ih

theorem symbolsAfter_of_char? {lead : UInt8} (later : List UInt8) {rest : List UInt8}
    {symbol : Char}
    (hChar : char? lead (later ++ rest) = some (symbol, later.length)) :
    symbolsAfter 0 (lead :: later ++ rest) = .char symbol :: symbolsAfter 0 rest := by
  rw [List.cons_append, symbolsAfter, hChar]
  exact congrArg (Symbol.char symbol :: ·) (symbolsAfter_append later rest)

private theorem byte_toNat {value : Nat} (hValue : value < 256) :
    (UInt8.ofNat value).toNat = value := by
  rw [UInt8.toNat_ofNat']
  exact Nat.mod_eq_of_lt hValue

private theorem continuation_toNat (value : Nat) :
    (UInt8.ofNat (value % 0x40 + 0x80)).toNat = value % 0x40 + 0x80 :=
  byte_toNat (by omega)

private theorem isContinuation (value : Nat) :
    IsContinuation (UInt8.ofNat (value % 0x40 + 0x80)) := by
  unfold IsContinuation
  rw [continuation_toNat]
  omega

/-! ### The four lengths of a sequence -/

private theorem char?_one {code : Nat} (hCode : code ≤ 0x7f) (rest : List UInt8) :
    char? (UInt8.ofNat code) rest = some (Char.ofNat code, 0) := by
  have hLead : (UInt8.ofNat code).toNat = code := byte_toNat (by omega)
  have hAscii : code < 0x80 := by omega
  simp only [char?, hLead, if_pos hAscii]

private theorem char?_two {code : Nat} (hLow : 0x7f < code) (hCode : code ≤ 0x7ff)
    (rest : List UInt8) :
    char? (UInt8.ofNat (code / 64 % 0x20 + 0xc0)) (UInt8.ofNat (code % 0x40 + 0x80) :: rest) =
      some (Char.ofNat code, 1) := by
  have hLead : (UInt8.ofNat (code / 64 % 0x20 + 0xc0)).toNat = code / 64 % 0x20 + 0xc0 :=
    byte_toNat (by omega)
  have hNotAscii : ¬ code / 64 % 0x20 + 0xc0 < 0x80 := by omega
  have hTwo : 0xc2 ≤ code / 64 % 0x20 + 0xc0 ∧ code / 64 % 0x20 + 0xc0 ≤ 0xdf := by omega
  have hValue : (code / 64 % 0x20 + 0xc0) % 32 * 64 + (code % 0x40 + 0x80) % 64 = code := by
    omega
  simp only [char?, hLead, if_neg hNotAscii, isContinuation, not_true, if_false, if_pos hTwo,
    continuation_toNat, hValue]

private theorem char?_three {code : Nat} (hLow : 0x7ff < code) (hCode : code ≤ 0xffff)
    (hValid : code.isValidChar) (rest : List UInt8) :
    char? (UInt8.ofNat (code / 4096 % 0x10 + 0xe0)) (UInt8.ofNat (code / 64 % 0x40 + 0x80) ::
      UInt8.ofNat (code % 0x40 + 0x80) :: rest) = some (Char.ofNat code, 2) := by
  have hLead : (UInt8.ofNat (code / 4096 % 0x10 + 0xe0)).toNat = code / 4096 % 0x10 + 0xe0 :=
    byte_toNat (by omega)
  have hNotAscii : ¬ code / 4096 % 0x10 + 0xe0 < 0x80 := by omega
  have hNotTwo : ¬ (0xc2 ≤ code / 4096 % 0x10 + 0xe0 ∧ code / 4096 % 0x10 + 0xe0 ≤ 0xdf) := by
    omega
  have hThree : 0xe0 ≤ code / 4096 % 0x10 + 0xe0 ∧ code / 4096 % 0x10 + 0xe0 ≤ 0xef := by omega
  have hValue : (code / 4096 % 0x10 + 0xe0) % 16 * 4096 + (code / 64 % 0x40 + 0x80) % 64 * 64 +
      (code % 0x40 + 0x80) % 64 = code := by
    omega
  have hScalar : 0x800 ≤ code ∧ code.isValidChar := ⟨hLow, hValid⟩
  simp only [char?, hLead, if_neg hNotAscii, isContinuation, not_true, if_false, if_neg hNotTwo,
    if_pos hThree, continuation_toNat, hValue, if_pos hScalar]

private theorem char?_four {code : Nat} (hLow : 0xffff < code) (hValid : code.isValidChar)
    (rest : List UInt8) :
    char? (UInt8.ofNat (code / 262144 % 0x08 + 0xf0)) (UInt8.ofNat (code / 4096 % 0x40 + 0x80) ::
      UInt8.ofNat (code / 64 % 0x40 + 0x80) :: UInt8.ofNat (code % 0x40 + 0x80) :: rest) =
      some (Char.ofNat code, 3) := by
  have hCode : code < 0x110000 := by
    rcases hValid with hValid | hValid
    · omega
    · exact hValid.2
  have hLead : (UInt8.ofNat (code / 262144 % 0x08 + 0xf0)).toNat = code / 262144 % 0x08 + 0xf0 :=
    byte_toNat (by omega)
  have hNotAscii : ¬ code / 262144 % 0x08 + 0xf0 < 0x80 := by omega
  have hNotTwo : ¬ (0xc2 ≤ code / 262144 % 0x08 + 0xf0 ∧ code / 262144 % 0x08 + 0xf0 ≤ 0xdf) := by
    omega
  have hNotThree : ¬ (0xe0 ≤ code / 262144 % 0x08 + 0xf0 ∧
      code / 262144 % 0x08 + 0xf0 ≤ 0xef) := by
    omega
  have hValue : (code / 262144 % 0x08 + 0xf0) % 8 * 262144 +
      (code / 4096 % 0x40 + 0x80) % 64 * 4096 + (code / 64 % 0x40 + 0x80) % 64 * 64 +
      (code % 0x40 + 0x80) % 64 = code := by
    omega
  have hScalar : 0xf0 ≤ code / 262144 % 0x08 + 0xf0 ∧ code / 262144 % 0x08 + 0xf0 ≤ 0xf4 ∧
      0x10000 ≤ code ∧ code.isValidChar := by
    refine ⟨by omega, by omega, hLow, hValid⟩
  simp only [char?, hLead, if_neg hNotAscii, isContinuation, not_true, if_false, if_neg hNotTwo,
    if_neg hNotThree, continuation_toNat, hValue, true_and, if_pos hScalar]

theorem symbolsAfter_utf8EncodeChar (symbol : Char) (rest : List UInt8) :
    symbolsAfter 0 (String.utf8EncodeChar symbol ++ rest) =
      .char symbol :: symbolsAfter 0 rest := by
  have hValid : symbol.val.toNat.isValidChar := symbol.valid
  have hSymbol : Char.ofNat symbol.val.toNat = symbol := Char.ofNat_toNat symbol
  unfold String.utf8EncodeChar
  generalize symbol.val.toNat = code at hValid hSymbol
  dsimp only
  subst hSymbol
  by_cases hOne : code ≤ 0x7f
  · rw [if_pos hOne]
    exact symbolsAfter_of_char? [] (char?_one hOne rest)
  · rw [if_neg hOne]
    by_cases hTwo : code ≤ 0x7ff
    · rw [if_pos hTwo]
      exact symbolsAfter_of_char? [_] (char?_two (Nat.not_le.1 hOne) hTwo rest)
    · rw [if_neg hTwo]
      by_cases hThree : code ≤ 0xffff
      · rw [if_pos hThree]
        exact symbolsAfter_of_char? [_, _]
          (char?_three (Nat.not_le.1 hTwo) hThree hValid rest)
      · rw [if_neg hThree]
        exact symbolsAfter_of_char? [_, _, _]
          (char?_four (Nat.not_le.1 hThree) hValid rest)

theorem symbols_encode (content : String) : symbols (encode content) = symbolsOfText content := by
  rw [symbols, symbolsOfText, encode_eq_flatMap]
  induction content.toList with
  | nil => rfl
  | cons symbol rest ih =>
      rw [List.flatMap_cons, List.map_cons, symbolsAfter_utf8EncodeChar, ih]

end Utf8

end AnnotationDefaults
