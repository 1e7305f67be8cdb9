import AnnotationDefaults.Number.Integer
import AnnotationDefaults.Text.Quoted

set_option autoImplicit false

/-!
Causes of failure in reading class files, in resolving constants and in compiling
expectations, with the one wording of each, which names kinds of constants. Offsets
and sizes are kept as numbers; only `message` turns them into text.
-/

namespace AnnotationDefaults

inductive ConstantKind where
  | utf8
  | integer
  | float
  | long
  | double
  | classRef
  | string
  | fieldRef
  | methodRef
  | interfaceMethodRef
  | nameAndType
  | methodHandle
  | methodType
  | dynamic
  | invokeDynamic
  | module
  | package
  deriving DecidableEq, Repr

def ConstantKind.name : ConstantKind → String
  | .utf8 => "Utf8"
  | .integer => "Integer"
  | .float => "Float"
  | .long => "Long"
  | .double => "Double"
  | .classRef => "Class"
  | .string => "String"
  | .fieldRef => "Fieldref"
  | .methodRef => "Methodref"
  | .interfaceMethodRef => "InterfaceMethodref"
  | .nameAndType => "NameAndType"
  | .methodHandle => "MethodHandle"
  | .methodType => "MethodType"
  | .dynamic => "Dynamic"
  | .invokeDynamic => "InvokeDynamic"
  | .module => "Module"
  | .package => "Package"

inductive RenderFault where
  | charUnit (value : Int)
  | byteRange (value : Int)
  | shortRange (value : Int)
  | notBoolean (value : Int)
  deriving DecidableEq, Repr

def RenderFault.message : RenderFault → String
  | .charUnit value => "char value " ++ Integer.render value ++ " is not a UTF-16 code unit"
  | .byteRange value => "byte value " ++ Integer.render value ++ " out of range"
  | .shortRange value => "short value " ++ Integer.render value ++ " out of range"
  | .notBoolean value => "boolean value " ++ Integer.render value ++ " is neither 0 nor 1"

inductive LayoutFault where
  | enumTypeNotText
  | enumConstantNotText
  | tokenCount (expected found : Nat)
  | notScalar
  | annotationTypeMissing
  | annotationTypeNotText
  | annotationElementNotPair
  | arrayItemNotNested
  | unrenderable (cause : RenderFault)
  deriving DecidableEq, Repr

def LayoutFault.message : LayoutFault → String
  | .enumTypeNotText => "enum type must be a text token"
  | .enumConstantNotText => "enum constant must be a text token"
  | .tokenCount expected found =>
      "expected " ++ Integer.render expected ++
        (if expected = 1 then " token" else " tokens") ++ ", got " ++ Integer.render found
  | .notScalar => "expected a scalar token"
  | .annotationTypeMissing => "missing annotation type token"
  | .annotationTypeNotText => "annotation type must be a text token"
  | .annotationElementNotPair => "annotation elements must be \x7bname, value\x7d objects"
  | .arrayItemNotNested => "array items must be nested \x7btag, values\x7d objects"
  | .unrenderable cause => cause.message

inductive Fault where
  /-- A file could not be read; the text is the platform's. -/
  | unreadable (reason : String)
  | notADocument
  | notAClassFile (magic : UInt32)
  | unexpectedEnd (offset need remaining : Nat)
  | unknownConstantTag (tag : UInt8) (offset : Nat)
  | malformedText (offset : Nat)
  | indexOutOfRange (index : UInt16) (size : Nat)
  | wrongConstant (index : UInt16) (expected found : ConstantKind)
  | unknownElementTag (tag : UInt8) (offset : Nat)
  | nestingExceeded (limit : Nat)
  | unknownExpectationTag (tag : Char)
  | badLayout (tag : Char) (cause : LayoutFault)
  deriving DecidableEq, Repr

private def shown (value : Nat) : String := Integer.render value

def Fault.message : Fault → String
  | .unreadable reason => "io: " ++ reason
  | .notADocument => "json: not an expectation document"
  | .notAClassFile magic =>
      "not a class file (magic=0x" ++ String.ofList (Hex.fixed .lower 8 magic.toNat) ++ ")"
  | .unexpectedEnd offset need remaining =>
      "unexpected eof at offset " ++ shown offset ++ ", need " ++ shown need ++
        " bytes, remaining " ++ shown remaining
  | .unknownConstantTag tag offset =>
      "unknown constant pool tag " ++ shown tag.toNat ++ " at offset " ++ shown offset
  | .malformedText offset => "malformed modified utf-8 at byte " ++ shown offset
  | .indexOutOfRange index size =>
      "constant pool index " ++ shown index.toNat ++ " out of range (pool size " ++
        shown size ++ ")"
  | .wrongConstant index expected found =>
      "constant pool index " ++ shown index.toNat ++ ": expected " ++ expected.name ++
        ", got " ++ found.name
  | .unknownElementTag tag offset =>
      "unknown element value tag 0x" ++ String.ofList (Hex.fixed .lower 2 tag.toNat) ++
        " at offset " ++ shown offset
  | .nestingExceeded limit => "element value nesting exceeded (max=" ++ shown limit ++ ")"
  | .unknownExpectationTag tag => "unknown expectation tag " ++ Quoted.character tag
  | .badLayout tag cause =>
      "invalid expectation for tag " ++ Quoted.character tag ++ ": " ++ cause.message

end AnnotationDefaults
