import AnnotationDefaults.Bytes.Cursor
import AnnotationDefaults.ConstantPool.Basic
import AnnotationDefaults.Text.ModifiedUtf8

set_option autoImplicit false

/-!
The byte form of constants and of pools. A constant is a tag byte and the fields
of its kind; a pool is a two-byte count of slots, slot zero included, and the
constants that fill the slots after it, a wide constant filling two. A wide
constant that begins in the last slot is cut to that slot.
-/

namespace AnnotationDefaults

namespace Constant

def decodeText (payload : List UInt8) : Except Fault String :=
  match ModifiedUtf8.decode payload with
  | .ok text => .ok text
  | .error offset => .error (.malformedText offset)

def decodeFields (tag : UInt8) (offset : Nat) : Decoder Constant := do
  match tag with
  | 1 =>
      let payload ← Decoder.bytes (← Decoder.short).toNat
      return .utf8 (← decodeText payload)
  | 3 => return .integer (← Decoder.signedWord)
  | 4 => return .float (← Decoder.word)
  | 5 => return .long (← Decoder.signedDoubleWord)
  | 6 => return .double (← Decoder.doubleWord)
  | 7 => return .classRef (← Decoder.short)
  | 8 => return .string (← Decoder.short)
  | 9 => return .memberRef tag (← Decoder.short) (← Decoder.short)
  | 10 => return .memberRef tag (← Decoder.short) (← Decoder.short)
  | 11 => return .memberRef tag (← Decoder.short) (← Decoder.short)
  | 12 => return .nameAndType (← Decoder.short) (← Decoder.short)
  | 15 => return .methodHandle (← Decoder.byte) (← Decoder.short)
  | 16 => return .methodType (← Decoder.short)
  | 17 => return .dynamic tag (← Decoder.short) (← Decoder.short)
  | 18 => return .dynamic tag (← Decoder.short) (← Decoder.short)
  | 19 => return .module (← Decoder.short)
  | 20 => return .package (← Decoder.short)
  | _ => throw (.unknownConstantTag tag offset)

def decode : Decoder Constant := do
  let offset ← Decoder.offset
  let tag ← Decoder.byte
  decodeFields tag offset

def tag : Constant → UInt8
  | .utf8 _ => 1
  | .integer _ => 3
  | .float _ => 4
  | .long _ => 5
  | .double _ => 6
  | .classRef _ => 7
  | .string _ => 8
  | .memberRef tag _ _ => tag
  | .nameAndType _ _ => 12
  | .methodHandle _ _ => 15
  | .methodType _ => 16
  | .dynamic tag _ _ => tag
  | .module _ => 19
  | .package _ => 20

private def short (value : UInt16) : List UInt8 := bigEndian 2 value.toNat

def encodeFields : Constant → List UInt8
  | .utf8 text =>
      let payload := ModifiedUtf8.encode text
      bigEndian 2 payload.length ++ payload
  | .integer value => bigEndian 4 value.toUInt32.toNat
  | .float bits => bigEndian 4 bits.toNat
  | .long value => bigEndian 8 value.toUInt64.toNat
  | .double bits => bigEndian 8 bits.toNat
  | .classRef name => short name
  | .string text => short text
  | .memberRef _ owner member => short owner ++ short member
  | .nameAndType name descriptor => short name ++ short descriptor
  | .methodHandle referenceKind reference => referenceKind :: short reference
  | .methodType descriptor => short descriptor
  | .dynamic _ bootstrap member => short bootstrap ++ short member
  | .module name => short name
  | .package name => short name

def encode (constant : Constant) : List UInt8 := constant.tag :: constant.encodeFields

/-- The slots that a constant fills: its own, and an empty one if it is wide. -/
def slots (constant : Constant) : List (Option Constant) :=
  if constant.isWide then [some constant, none] else [some constant]

end Constant

namespace ConstantPool

def decodeSlots : (count : Nat) → Decoder (List (Option Constant))
  | 0 => return []
  | 1 => do return [some (← Constant.decode)]
  | count + 2 => do
      let constant ← Constant.decode
      let rest ← if constant.isWide then decodeSlots count else decodeSlots (count + 1)
      return constant.slots ++ rest

def decode : Decoder ConstantPool := do
  let count ← Decoder.short
  return ofSlots (← decodeSlots (count.toNat - 1))

def encode (pool : ConstantPool) : List UInt8 :=
  bigEndian 2 pool.size ++ (pool.later.toList.filterMap id).flatMap Constant.encode

end ConstantPool

end AnnotationDefaults
