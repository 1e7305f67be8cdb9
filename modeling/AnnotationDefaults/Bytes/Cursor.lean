import AnnotationDefaults.Fault

set_option autoImplicit false

/-!
Bounded reading of bytes. A cursor is an offset and the bytes from there on; a
read takes its bytes from the front or fails with the offset, the need and what
was left, so a decoder depends on nothing that it did not read.
-/

namespace AnnotationDefaults

/-- A position in a byte string: how many bytes came before, and those that follow. -/
structure Cursor where
  offset : Nat
  rest : List UInt8
  deriving DecidableEq, Repr

namespace Cursor

def ofBytes (bytes : List UInt8) : Cursor := ⟨0, bytes⟩

def remaining (cursor : Cursor) : Nat := cursor.rest.length

end Cursor

abbrev Decoder := StateT Cursor (Except Fault)

/-- The first `count` items and the others, if there are so many. -/
def split? {α : Type} : (count : Nat) → List α → Option (List α × List α)
  | 0, items => some ([], items)
  | _ + 1, [] => none
  | count + 1, item :: rest => (split? count rest).map fun (taken, rest) => (item :: taken, rest)

/-- The natural that bytes denote, most significant first. -/
def bigEndianValue (bytes : List UInt8) : Nat :=
  bytes.foldl (fun total byte => 256 * total + byte.toNat) 0

/-- The last `width` bytes of a natural, most significant first. -/
def bigEndian : (width : Nat) → (value : Nat) → List UInt8
  | 0, _ => []
  | width + 1, value => bigEndian width (value / 256) ++ [UInt8.ofNat value]

namespace Decoder

def bytes (count : Nat) : Decoder (List UInt8) := fun cursor =>
  match split? count cursor.rest with
  | some (taken, rest) => .ok (taken, ⟨cursor.offset + count, rest⟩)
  | none => .error (.unexpectedEnd cursor.offset count cursor.remaining)

def natural (width : Nat) : Decoder Nat := do
  return bigEndianValue (← bytes width)

def byte : Decoder UInt8 := do return UInt8.ofNat (← natural 1)

def short : Decoder UInt16 := do return UInt16.ofNat (← natural 2)

def word : Decoder UInt32 := do return UInt32.ofNat (← natural 4)

def doubleWord : Decoder UInt64 := do return UInt64.ofNat (← natural 8)

def signedWord : Decoder Int32 := do return (← word).toInt32

def signedDoubleWord : Decoder Int64 := do return (← doubleWord).toInt64

def offset : Decoder Nat := do return (← get).offset

def times {α : Type} (decoder : Decoder α) : (count : Nat) → Decoder (List α)
  | 0 => return []
  | count + 1 => do
      let first ← decoder
      let rest ← times decoder count
      return first :: rest

def counted {α : Type} (decoder : Decoder α) : Decoder (List α) := do
  let count ← short
  times decoder count.toNat

end Decoder

end AnnotationDefaults
