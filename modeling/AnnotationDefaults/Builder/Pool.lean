import AnnotationDefaults.Builder.Literal
import AnnotationDefaults.Bytes.Cursor
import AnnotationDefaults.Text.ModifiedUtf8

set_option autoImplicit false

/-!
Pools under construction. A builder keeps the bytes of the records written so far, the next
free slot and the index of every key that has one. A key that is there keeps its index; a
new one is written behind the others. Encoding a literal interns its keys in the order in
which its bytes refer to them.
-/

namespace AnnotationDefaults

/-- What is interned. A class stands for its name, which is a key of its own. -/
inductive PoolKey where
  | utf8 (content : String)
  | integer (value : Int32)
  | float (bits : UInt32)
  | long (value : Int64)
  | double (bits : UInt64)
  | classRef (name : String)
  deriving DecidableEq, Repr

/-- How far a key moves the next slot. -/
def PoolKey.slots : PoolKey → UInt16
  | .long _ => 2
  | .double _ => 2
  | _ => 1

structure PoolBuilder where
  bytes : List UInt8
  next : UInt16
  index : List (PoolKey × UInt16)
  deriving DecidableEq, Repr

namespace PoolBuilder

def empty : PoolBuilder := ⟨[], 0, []⟩

/-- Slot zero is never given out. -/
def leaveSlotZero (builder : PoolBuilder) : PoolBuilder :=
  if builder.next = 0 then { builder with next := 1 } else builder

/-- Writes the record of a key, which gets the next slot. -/
def add (key : PoolKey) (record : List UInt8) : StateM PoolBuilder UInt16 := fun builder =>
  (builder.next, {
    bytes := builder.bytes ++ record
    next := builder.next + key.slots
    index := builder.index ++ [(key, builder.next)] })

/-- The index of a key; one that has none yet is added. -/
def indexOrAdd (key : PoolKey) (adding : StateM PoolBuilder UInt16) :
    StateM PoolBuilder UInt16 := fun builder =>
  match builder.index.lookup key with
  | some index => (index, builder)
  | none => adding builder.leaveSlotZero

def text (content : String) : StateM PoolBuilder UInt16 :=
  let payload := ModifiedUtf8.encode content
  indexOrAdd (.utf8 content)
    (add (.utf8 content) (1 :: bigEndian 2 payload.length ++ payload))

def intern : PoolKey → StateM PoolBuilder UInt16
  | .utf8 content => text content
  | .integer value => indexOrAdd (.integer value)
      (add (.integer value) (3 :: bigEndian 4 value.toUInt32.toNat))
  | .float bits => indexOrAdd (.float bits)
      (add (.float bits) (4 :: bigEndian 4 bits.toNat))
  | .long value => indexOrAdd (.long value)
      (add (.long value) (5 :: bigEndian 8 value.toUInt64.toNat))
  | .double bits => indexOrAdd (.double bits)
      (add (.double bits) (6 :: bigEndian 8 bits.toNat))
  | .classRef name => indexOrAdd (.classRef name) do
      -- The name may take a slot; the class gets the one behind it.
      let nameIndex ← text name
      add (.classRef name) (7 :: bigEndian 2 nameIndex.toNat)

def refer (key : PoolKey) (out : List UInt8) : StateM PoolBuilder (List UInt8) := do
  return out ++ bigEndian 2 (← intern key).toNat

mutual

/-- Writes a literal behind the bytes. Of a character beyond the basic plane the first unit
is kept, of a count the last two bytes. -/
def encodeInto (literal : Literal) (out : List UInt8) : StateM PoolBuilder (List UInt8) :=
  let out := out ++ [UInt8.ofNat literal.symbol.toNat]
  match literal with
  | .byte value => refer (.integer value.toInt32) out
  | .char value =>
      let unit := (Utf16.ofChar value).head?.getD 0
      refer (.integer (Int32.ofNat unit.toNat)) out
  | .short value => refer (.integer value.toInt32) out
  | .boolean value => refer (.integer (if value then 1 else 0)) out
  | .int value => refer (.integer value) out
  | .long value => refer (.long value) out
  | .float bits => refer (.float bits) out
  | .double bits => refer (.double bits) out
  | .string content => refer (.utf8 content) out
  | .classLiteral descriptor => refer (.utf8 descriptor) out
  | .enumConstant typeName constantName => do
      let typeIndex ← text typeName
      let nameIndex ← text constantName
      return out ++ bigEndian 2 typeIndex.toNat ++ bigEndian 2 nameIndex.toNat
  | .annotationValue typeName pairs => do
      let typeIndex ← text typeName
      encodePairsInto pairs (out ++ bigEndian 2 typeIndex.toNat ++ bigEndian 2 pairs.length)
  | .array items => encodeItemsInto items (out ++ bigEndian 2 items.length)

def encodePairsInto (pairs : List (String × Literal)) (out : List UInt8) :
    StateM PoolBuilder (List UInt8) :=
  match pairs with
  | [] => return out
  | (name, value) :: rest => do
      let nameIndex ← text name
      let out ← encodeInto value (out ++ bigEndian 2 nameIndex.toNat)
      encodePairsInto rest out

def encodeItemsInto (items : List Literal) (out : List UInt8) :
    StateM PoolBuilder (List UInt8) :=
  match items with
  | [] => return out
  | item :: rest => do
      let out ← encodeInto item out
      encodeItemsInto rest out

end

def encode (literal : Literal) : StateM PoolBuilder (List UInt8) := encodeInto literal []

end PoolBuilder

end AnnotationDefaults
