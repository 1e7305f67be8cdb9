set_option autoImplicit false

/-!
Text as sixteen-bit units, and modified UTF-8, the byte form of class-file text. Every
text has one sequence of units. Reading units back pairs each high surrogate with a
low surrogate right after it and puts the replacement character in place of a
surrogate without a partner, so reading is total and loses which surrogate stood
alone. In bytes each unit is one, two or three of them; zero takes two, so no byte of
a payload is zero, and a pair of surrogates takes six. The reader accepts every
concatenation of the three forms, overlong ones included, and otherwise reports the
offset of the first byte that fits no form.
-/

namespace AnnotationDefaults

namespace Utf16

/-- Shown in place of a surrogate that has no partner. -/
def replacement : Char := '\ufffd'

def IsHigh (unit : UInt16) : Prop := 0xd800 ≤ unit.toNat ∧ unit.toNat ≤ 0xdbff

def IsLow (unit : UInt16) : Prop := 0xdc00 ≤ unit.toNat ∧ unit.toNat ≤ 0xdfff

instance (unit : UInt16) : Decidable (IsHigh unit) :=
  inferInstanceAs (Decidable (_ ∧ _))

instance (unit : UInt16) : Decidable (IsLow unit) :=
  inferInstanceAs (Decidable (_ ∧ _))

/-- The units of one character: a pair of surrogates beyond the basic plane. -/
def ofChar (symbol : Char) : List UInt16 :=
  let code := symbol.toNat
  if code < 0x10000 then [UInt16.ofNat code]
  else [UInt16.ofNat (0xd800 + (code - 0x10000) / 0x400),
    UInt16.ofNat (0xdc00 + (code - 0x10000) % 0x400)]

def encode (content : List Char) : List UInt16 := content.flatMap ofChar

def pairChar (high low : UInt16) : Char :=
  Char.ofNat (0x10000 + (high.toNat - 0xd800) * 0x400 + (low.toNat - 0xdc00))

def loneChar (unit : UInt16) : Char :=
  if IsHigh unit ∨ IsLow unit then replacement else Char.ofNat unit.toNat

def decode : List UInt16 → List Char
  | [] => []
  | [unit] => [loneChar unit]
  | first :: second :: rest =>
      if IsHigh first ∧ IsLow second then pairChar first second :: decode rest
      else loneChar first :: decode (second :: rest)

end Utf16

namespace ModifiedUtf8

inductive Form where
  | one
  | two
  | three
  deriving DecidableEq, Repr

def form? (lead : UInt8) : Option Form :=
  let value := lead.toNat
  if 0x01 ≤ value ∧ value ≤ 0x7f then some .one
  else if 0xc0 ≤ value ∧ value ≤ 0xdf then some .two
  else if 0xe0 ≤ value ∧ value ≤ 0xef then some .three
  else none

def IsContinuation (byte : UInt8) : Prop := 0x80 ≤ byte.toNat ∧ byte.toNat ≤ 0xbf

instance (byte : UInt8) : Decidable (IsContinuation byte) :=
  inferInstanceAs (Decidable (_ ∧ _))

def unitOfTwo (lead low : UInt8) : UInt16 :=
  UInt16.ofNat (lead.toNat % 32 * 64 + low.toNat % 64)

def unitOfThree (lead mid low : UInt8) : UInt16 :=
  UInt16.ofNat (lead.toNat % 16 * 4096 + mid.toNat % 64 * 64 + low.toNat % 64)

/-- Reads units; `offset` is that of the first remaining byte, and a failure
carries the offset of the byte that is missing or does not fit. -/
def decodeUnits (offset : Nat) : List UInt8 → Except Nat (List UInt16)
  | [] => .ok []
  | lead :: rest =>
      match form? lead with
      | none => .error offset
      | some .one =>
          (decodeUnits (offset + 1) rest).map (UInt16.ofNat lead.toNat :: ·)
      | some .two =>
          match rest with
          | [] => .error (offset + 1)
          | low :: rest =>
              if IsContinuation low then
                (decodeUnits (offset + 2) rest).map (unitOfTwo lead low :: ·)
              else .error (offset + 1)
      | some .three =>
          match rest with
          | [] => .error (offset + 1)
          | [mid] => .error (if IsContinuation mid then offset + 2 else offset + 1)
          | mid :: low :: rest =>
              if IsContinuation mid then
                if IsContinuation low then
                  (decodeUnits (offset + 3) rest).map (unitOfThree lead mid low :: ·)
                else .error (offset + 2)
              else .error (offset + 1)

def decode (payload : List UInt8) : Except Nat String :=
  (decodeUnits 0 payload).map fun units => String.ofList (Utf16.decode units)

def encodeUnit (unit : UInt16) : List UInt8 :=
  let value := unit.toNat
  if 0x01 ≤ value ∧ value ≤ 0x7f then [UInt8.ofNat value]
  else if value ≤ 0x7ff then [UInt8.ofNat (0xc0 + value / 64), UInt8.ofNat (0x80 + value % 64)]
  else [UInt8.ofNat (0xe0 + value / 4096), UInt8.ofNat (0x80 + value / 64 % 64),
    UInt8.ofNat (0x80 + value % 64)]

def encode (content : String) : List UInt8 :=
  (Utf16.encode content.toList).flatMap encodeUnit

end ModifiedUtf8

end AnnotationDefaults
