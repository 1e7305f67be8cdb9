set_option autoImplicit false

/-!
Tags of element values. Nine literal kinds refer to one constant each; the other
four tags are composite. On disk and in expectations a tag is one character.
-/

namespace AnnotationDefaults

inductive LiteralTag where
  | byte
  | char
  | double
  | float
  | int
  | long
  | short
  | boolean
  | string
  deriving DecidableEq, Repr

inductive Tag where
  | literal (kind : LiteralTag)
  | enumConstant
  | classLiteral
  | annotationValue
  | array
  deriving DecidableEq, Repr

namespace LiteralTag

def symbol : LiteralTag → Char
  | .byte => 'B'
  | .char => 'C'
  | .double => 'D'
  | .float => 'F'
  | .int => 'I'
  | .long => 'J'
  | .short => 'S'
  | .boolean => 'Z'
  | .string => 's'

def name : LiteralTag → String
  | .byte => "byte"
  | .char => "char"
  | .double => "double"
  | .float => "float"
  | .int => "int"
  | .long => "long"
  | .short => "short"
  | .boolean => "boolean"
  | .string => "string"

end LiteralTag

namespace Tag

/-- Every tag, in the order of the format's table. -/
def all : List Tag :=
  [.literal .byte, .literal .char, .literal .double, .literal .float, .literal .int,
    .literal .long, .literal .short, .literal .boolean, .literal .string,
    .enumConstant, .classLiteral, .annotationValue, .array]

def symbol : Tag → Char
  | .literal kind => kind.symbol
  | .enumConstant => 'e'
  | .classLiteral => 'c'
  | .annotationValue => '@'
  | .array => '['

def ofSymbol? (symbol : Char) : Option Tag := all.find? fun tag => tag.symbol == symbol

def name : Tag → String
  | .literal kind => kind.name
  | .enumConstant => "enum_class"
  | .classLiteral => "class"
  | .annotationValue => "annotation"
  | .array => "array"

def label (tag : Tag) : String := tag.symbol.toString ++ " " ++ tag.name

def literal? : Tag → Option LiteralTag
  | .literal kind => some kind
  | _ => none

theorem ofSymbol?_symbol (tag : Tag) : ofSymbol? tag.symbol = some tag := by
  cases tag with
  | literal kind => cases kind <;> rfl
  | enumConstant => rfl
  | classLiteral => rfl
  | annotationValue => rfl
  | array => rfl

theorem symbol_of_ofSymbol? {symbol : Char} {tag : Tag} (hFound : ofSymbol? symbol = some tag) :
    tag.symbol = symbol := by
  have hTest := List.find?_some hFound
  exact eq_of_beq hTest

end Tag

end AnnotationDefaults
