import AnnotationDefaults.ClassFile.Basic
import AnnotationDefaults.ConstantPool.Format
import AnnotationDefaults.Element.Format

set_option autoImplicit false

/-!
The byte form of class files: a magic number, two versions, the pool, flags, three
tables of indices and members, and the attributes of the class. Every table is a
two-byte count and its entries; an attribute has a four-byte length. Bytes after
the last attribute belong to nobody. The attribute that holds the default of an
annotation element is one element value; bytes after the value are kept out of the
decoded default and show only in the declared length.
-/

namespace AnnotationDefaults

def Attribute.decode : Decoder Attribute := do
  let nameIndex ← Decoder.short
  let length ← Decoder.word
  return ⟨nameIndex, ← Decoder.bytes length.toNat⟩

def Member.decode : Decoder Member := do
  let accessFlags ← Decoder.short
  let nameIndex ← Decoder.short
  let descriptorIndex ← Decoder.short
  return ⟨accessFlags, nameIndex, descriptorIndex, ← Decoder.counted Attribute.decode⟩

namespace ClassFile

def magic : UInt32 := 0xcafebabe

def decode : Decoder ClassFile := do
  let found ← Decoder.word
  if found ≠ magic then throw (.notAClassFile found)
  let minorVersion ← Decoder.short
  let majorVersion ← Decoder.short
  let pool ← ConstantPool.decode
  let accessFlags ← Decoder.short
  let thisClass ← Decoder.short
  let superClass ← Decoder.short
  let interfaces ← Decoder.counted Decoder.short
  let fields ← Decoder.counted Member.decode
  let methods ← Decoder.counted Member.decode
  let attributes ← Decoder.counted Attribute.decode
  return {
    minorVersion, majorVersion, pool, accessFlags, thisClass, superClass, interfaces,
    fields, methods, attributes }

def ofBytes (bytes : List UInt8) : Except Fault ClassFile :=
  (decode.run (Cursor.ofBytes bytes)).map (·.1)

end ClassFile

namespace Attribute

def encode (entry : Attribute) : List UInt8 :=
  bigEndian 2 entry.nameIndex.toNat ++ bigEndian 4 entry.info.length ++ entry.info

end Attribute

namespace Member

def encode (member : Member) : List UInt8 :=
  bigEndian 2 member.accessFlags.toNat ++ bigEndian 2 member.nameIndex.toNat ++
    bigEndian 2 member.descriptorIndex.toNat ++
    bigEndian 2 member.attributes.length ++ member.attributes.flatMap Attribute.encode

end Member

namespace ClassFile

def encodeTable {α : Type} (encodeEntry : α → List UInt8) (entries : List α) : List UInt8 :=
  bigEndian 2 entries.length ++ entries.flatMap encodeEntry

def encode (file : ClassFile) : List UInt8 :=
  bigEndian 4 magic.toNat ++ bigEndian 2 file.minorVersion.toNat ++
    bigEndian 2 file.majorVersion.toNat ++ file.pool.encode ++
    bigEndian 2 file.accessFlags.toNat ++ bigEndian 2 file.thisClass.toNat ++
    bigEndian 2 file.superClass.toNat ++
    encodeTable (fun index : UInt16 => bigEndian 2 index.toNat) file.interfaces ++
    encodeTable Member.encode file.fields ++ encodeTable Member.encode file.methods ++
    encodeTable Attribute.encode file.attributes

end ClassFile

/-- A decoded default with the name index and the declared length it came with. -/
structure AnnotationDefault where
  nameIndex : UInt16
  declaredLength : Nat
  value : DecodedElement

namespace AnnotationDefault

def attributeName : String := "AnnotationDefault"

def ofAttribute (entry : Attribute) : Except Fault AnnotationDefault := do
  let (value, _) ← Element.decode.run (Cursor.ofBytes entry.info)
  return ⟨entry.nameIndex, entry.declaredLength, value⟩

end AnnotationDefault

namespace Member

def defaults (member : Member) (pool : ConstantPool) : List Attribute :=
  member.attributesNamed pool AnnotationDefault.attributeName

end Member

end AnnotationDefaults
