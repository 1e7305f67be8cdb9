import AnnotationDefaults.Fault

set_option autoImplicit false

/-!
Constants and pools of constants. A pool numbers its slots from zero; slot zero
and the second slot of a wide constant hold nothing. Lookups by index either give
the constant of the required kind or say what stood in the way. Floating-point
constants are bit patterns, so two constants are equal exactly if their encodings
are.
-/

namespace AnnotationDefaults

/-- A usable constant. References to other slots are kept as indices. -/
inductive Constant where
  | utf8 (text : String)
  | integer (value : Int32)
  | float (bits : UInt32)
  | long (value : Int64)
  | double (bits : UInt64)
  | classRef (name : UInt16)
  | string (text : UInt16)
  | memberRef (tag : UInt8) (owner nameAndType : UInt16)
  | nameAndType (name descriptor : UInt16)
  | methodHandle (referenceKind : UInt8) (reference : UInt16)
  | methodType (descriptor : UInt16)
  | dynamic (tag : UInt8) (bootstrap nameAndType : UInt16)
  | module (name : UInt16)
  | package (name : UInt16)
  deriving DecidableEq, Repr

namespace Constant

def kind : Constant → ConstantKind
  | .utf8 _ => .utf8
  | .integer _ => .integer
  | .float _ => .float
  | .long _ => .long
  | .double _ => .double
  | .classRef _ => .classRef
  | .string _ => .string
  | .memberRef tag _ _ =>
      if tag = 9 then .fieldRef else if tag = 10 then .methodRef else .interfaceMethodRef
  | .nameAndType _ _ => .nameAndType
  | .methodHandle _ _ => .methodHandle
  | .methodType _ => .methodType
  | .dynamic tag _ _ => if tag = 17 then .dynamic else .invokeDynamic
  | .module _ => .module
  | .package _ => .package

/-- Eight-byte numbers occupy two slots. -/
def isWide : Constant → Bool
  | .long _ => true
  | .double _ => true
  | _ => false

end Constant

/-- The slots of a pool after slot zero. -/
structure ConstantPool where
  later : Array (Option Constant)
  deriving DecidableEq, Repr

namespace ConstantPool

def ofSlots (slots : List (Option Constant)) : ConstantPool := ⟨slots.toArray⟩

def size (pool : ConstantPool) : Nat := pool.later.size + 1

def isEmpty (pool : ConstantPool) : Bool := pool.size ≤ 1

/-- The constant of a slot; slot zero and slots past the end hold none. -/
def slot? (pool : ConstantPool) (index : Nat) : Option Constant :=
  match index with
  | 0 => none
  | index + 1 => (pool.later[index]?).join

def get (pool : ConstantPool) (index : UInt16) : Except Fault Constant :=
  match pool.slot? index.toNat with
  | some constant => .ok constant
  | none => .error (.indexOutOfRange index pool.size)

def utf8 (pool : ConstantPool) (index : UInt16) : Except Fault String := do
  match ← pool.get index with
  | .utf8 text => .ok text
  | other => .error (.wrongConstant index .utf8 other.kind)

def integer (pool : ConstantPool) (index : UInt16) : Except Fault Int32 := do
  match ← pool.get index with
  | .integer value => .ok value
  | other => .error (.wrongConstant index .integer other.kind)

def long (pool : ConstantPool) (index : UInt16) : Except Fault Int64 := do
  match ← pool.get index with
  | .long value => .ok value
  | other => .error (.wrongConstant index .long other.kind)

def float (pool : ConstantPool) (index : UInt16) : Except Fault UInt32 := do
  match ← pool.get index with
  | .float bits => .ok bits
  | other => .error (.wrongConstant index .float other.kind)

def double (pool : ConstantPool) (index : UInt16) : Except Fault UInt64 := do
  match ← pool.get index with
  | .double bits => .ok bits
  | other => .error (.wrongConstant index .double other.kind)

def className (pool : ConstantPool) (index : UInt16) : Except Fault String := do
  match ← pool.get index with
  | .classRef name => pool.utf8 name
  | other => .error (.wrongConstant index .classRef other.kind)

end ConstantPool

end AnnotationDefaults
