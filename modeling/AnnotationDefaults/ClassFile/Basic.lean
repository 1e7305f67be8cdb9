import AnnotationDefaults.ConstantPool.Basic

set_option autoImplicit false

/-!
Class files seen from outside: versions, constants, flags, and members with their
attributes. Attribute contents stay undecoded bytes.
-/

namespace AnnotationDefaults

/-- An attribute: the index of its name and its contents, whose number is the
declared length. -/
structure Attribute where
  nameIndex : UInt16
  info : List UInt8
  deriving DecidableEq, Repr

structure Member where
  accessFlags : UInt16
  nameIndex : UInt16
  descriptorIndex : UInt16
  attributes : List Attribute
  deriving DecidableEq, Repr

structure ClassFile where
  minorVersion : UInt16
  majorVersion : UInt16
  pool : ConstantPool
  accessFlags : UInt16
  thisClass : UInt16
  superClass : UInt16
  interfaces : List UInt16
  fields : List Member
  methods : List Member
  attributes : List Attribute
  deriving DecidableEq, Repr

namespace Attribute

def declaredLength (entry : Attribute) : Nat := entry.info.length % UInt32.size

def name (entry : Attribute) (pool : ConstantPool) : Except Fault String :=
  pool.utf8 entry.nameIndex

def isNamed (entry : Attribute) (pool : ConstantPool) (text : String) : Bool :=
  match entry.name pool with
  | .ok name => name == text
  | .error _ => false

end Attribute

namespace Member

def name (member : Member) (pool : ConstantPool) : Except Fault String :=
  pool.utf8 member.nameIndex

def descriptor (member : Member) (pool : ConstantPool) : Except Fault String :=
  pool.utf8 member.descriptorIndex

/-- The attributes of this name; one whose name does not resolve is left out. -/
def attributesNamed (member : Member) (pool : ConstantPool) (text : String) : List Attribute :=
  member.attributes.filter (·.isNamed pool text)

end Member

namespace ClassFile

def name (file : ClassFile) : Except Fault String := file.pool.className file.thisClass

end ClassFile

end AnnotationDefaults
