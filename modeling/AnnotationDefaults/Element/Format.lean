import AnnotationDefaults.Bytes.Cursor
import AnnotationDefaults.Element.Basic

set_option autoImplicit false

/-!
The byte form of element values. A value is its tag character as one byte and then
its leaves, each a two-byte index; annotations and arrays put a two-byte count
before their children. The reader allows a bounded number of levels and refuses a
deeper value before it reads that value's tag.
-/

namespace AnnotationDefaults

namespace Element

/-- How many levels of values a reader accepts. -/
def depthLimit : Nat := 64

def tagOfByte? (byte : UInt8) : Option Tag := Tag.ofSymbol? (Char.ofNat byte.toNat)

/-- Reads a value of at most `levels` levels, its tag included. -/
def decodeWithin : (levels : Nat) → Decoder DecodedElement
  | 0 => throw (.nestingExceeded depthLimit)
  | levels + 1 => do
      let offset ← Decoder.offset
      let byte ← Decoder.byte
      match tagOfByte? byte with
      | none => throw (.unknownElementTag byte offset)
      | some (.literal kind) => return .literal kind (← Decoder.short)
      | some .enumConstant => return .enumConstant (← Decoder.short) (← Decoder.short)
      | some .classLiteral => return .classLiteral (← Decoder.short)
      | some .annotationValue => do
          let typeName ← Decoder.short
          let pairs ← Decoder.counted do
            let name ← Decoder.short
            return (name, ← decodeWithin levels)
          return .annotationValue typeName pairs
      | some .array => return .array (← Decoder.counted (decodeWithin levels))

def decode : Decoder DecodedElement := decodeWithin depthLimit

private def index (value : UInt16) : List UInt8 := bigEndian 2 value.toNat

mutual

/-- The bytes of a value; a count keeps its last two bytes. -/
def encode : DecodedElement → List UInt8
  | .literal kind value => UInt8.ofNat kind.symbol.toNat :: index value
  | .enumConstant typeName constantName =>
      UInt8.ofNat 'e'.toNat :: index typeName ++ index constantName
  | .classLiteral descriptor => UInt8.ofNat 'c'.toNat :: index descriptor
  | .annotationValue typeName pairs =>
      UInt8.ofNat '@'.toNat :: index typeName ++ bigEndian 2 pairs.length ++ encodePairs pairs
  | .array items => UInt8.ofNat '['.toNat :: bigEndian 2 items.length ++ encodeItems items

def encodePairs : List (UInt16 × DecodedElement) → List UInt8
  | [] => []
  | (name, value) :: rest => index name ++ encode value ++ encodePairs rest

def encodeItems : List DecodedElement → List UInt8
  | [] => []
  | item :: rest => encode item ++ encodeItems rest

end

end Element

end AnnotationDefaults
