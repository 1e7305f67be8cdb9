import AnnotationDefaults.Expectation.Spec
import AnnotationDefaults.Scalar.Token
import AnnotationDefaults.Text.ModifiedUtf8

set_option autoImplicit false

/-!
Default values as a source program writes them. A literal knows the character that marks
it, the descriptor that its type has, and the specification that it satisfies.
-/

namespace AnnotationDefaults

/-- A default value; floating-point numbers are bit patterns. -/
inductive Literal where
  | byte (value : Int8)
  | char (value : Char)
  | double (bits : UInt64)
  | float (bits : UInt32)
  | int (value : Int32)
  | long (value : Int64)
  | short (value : Int16)
  | boolean (value : Bool)
  | string (content : String)
  | enumConstant (typeName constantName : String)
  | classLiteral (descriptor : String)
  | annotationValue (typeName : String) (pairs : List (String × Literal))
  | array (items : List Literal)

namespace Literal

def symbol : Literal → Char
  | .byte _ => 'B'
  | .char _ => 'C'
  | .double _ => 'D'
  | .float _ => 'F'
  | .int _ => 'I'
  | .long _ => 'J'
  | .short _ => 'S'
  | .boolean _ => 'Z'
  | .string _ => 's'
  | .enumConstant _ _ => 'e'
  | .classLiteral _ => 'c'
  | .annotationValue _ _ => '@'
  | .array _ => '['

mutual

def toSpec : Literal → Spec
  | .byte value => .mk 'B' [.text (Integer.render value.toInt)]
  | .char value => .mk 'C' [.text value.toString]
  | .double bits => .mk 'D' [.text (Scalar.tokenLayout.text .double bits.toNat)]
  | .float bits => .mk 'F' [.text (Scalar.tokenLayout.text .single bits.toNat)]
  | .int value => .mk 'I' [.text (Integer.render value.toInt)]
  | .long value => .mk 'J' [.text (Integer.render value.toInt)]
  | .short value => .mk 'S' [.text (Integer.render value.toInt)]
  | .boolean value => .mk 'Z' [.text (if value then "true" else "false")]
  | .string content => .mk 's' [.text content]
  | .enumConstant typeName constantName => .mk 'e' [.text typeName, .text constantName]
  | .classLiteral descriptor => .mk 'c' [.text descriptor]
  | .annotationValue typeName pairs => .mk '@' (.text typeName :: pairTokens pairs)
  | .array items => .mk '[' (itemTokens items)

def pairTokens : List (String × Literal) → List SpecToken
  | [] => []
  | (name, value) :: rest => .pair name (toSpec value) :: pairTokens rest

def itemTokens : List Literal → List SpecToken
  | [] => []
  | item :: rest => .nested (toSpec item) :: itemTokens rest

end

/-- The descriptor of a literal's type; an array takes its first item's, and an
empty array that of integers. -/
def descriptor : Literal → String
  | .byte _ => "B"
  | .char _ => "C"
  | .double _ => "D"
  | .float _ => "F"
  | .int _ => "I"
  | .long _ => "J"
  | .short _ => "S"
  | .boolean _ => "Z"
  | .string _ => "Ljava/lang/String;"
  | .classLiteral _ => "Ljava/lang/Class;"
  | .enumConstant typeName _ => typeName
  | .annotationValue typeName _ => typeName
  | .array [] => "[I"
  | .array (first :: _) => "[" ++ descriptor first

end Literal

end AnnotationDefaults
