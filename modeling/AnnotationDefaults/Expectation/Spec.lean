import AnnotationDefaults.Element.Basic
import AnnotationDefaults.Fault
import AnnotationDefaults.Json.Number
import AnnotationDefaults.Scalar.Token

set_option autoImplicit false

/-!
Expectations as they are written, and their layouts. A specification is a tag
character and tokens; its tag decides which tokens it takes. `compile` checks the
layout and builds the expected value, and `ofElement` writes an expected value back
with every scalar token as text. `ofDecoded` is the expectation that a decoded value
satisfies: every index is resolved, literals become tokens and the other leaves
become the text they refer to.
-/

namespace AnnotationDefaults

mutual

/-- What is expected of one value: a tag character and its tokens. -/
inductive Spec where
  | mk (tag : Char) (values : List SpecToken)

inductive SpecToken where
  | nested (spec : Spec)
  | pair (name : String) (value : Spec)
  | text (content : String)
  | number (value : Json.Number)
  | bool (value : Bool)

end

namespace Spec

def tag : Spec → Char
  | .mk tag _ => tag

def values : Spec → List SpecToken
  | .mk _ values => values

end Spec

namespace SpecToken

def scalarText? : SpecToken → Option String
  | .text content => some content
  | .number value => some value.text
  | .bool true => some "true"
  | .bool false => some "false"
  | _ => none

def text? : SpecToken → Option String
  | .text content => some content
  | _ => none

/-- The only token of a layout that takes one scalar. -/
def single : List SpecToken → Except LayoutFault String
  | [token] =>
      match token.scalarText? with
      | some content => .ok content
      | none => .error .notScalar
  | tokens => .error (.tokenCount 1 tokens.length)

def enumTexts : List SpecToken → Except LayoutFault (String × String)
  | [typeName, constantName] =>
      match typeName.text?, constantName.text? with
      | some typeName, some constantName => .ok (typeName, constantName)
      | none, _ => .error .enumTypeNotText
      | _, none => .error .enumConstantNotText
  | tokens => .error (.tokenCount 2 tokens.length)

end SpecToken

namespace Spec

mutual

/-- Checks the layout of a specification and builds the expected value. -/
def compile : Spec → Except Fault ExpectedElement
  | .mk tag values =>
      match Tag.ofSymbol? tag with
      | none => .error (.unknownExpectationTag tag)
      | some (.literal kind) =>
          match SpecToken.single values with
          | .ok token => .ok (.literal kind token)
          | .error cause => .error (.badLayout tag cause)
      | some .classLiteral =>
          match SpecToken.single values with
          | .ok descriptor => .ok (.classLiteral descriptor)
          | .error cause => .error (.badLayout tag cause)
      | some .enumConstant =>
          match SpecToken.enumTexts values with
          | .ok (typeName, constantName) => .ok (.enumConstant typeName constantName)
          | .error cause => .error (.badLayout tag cause)
      | some .annotationValue =>
          match values with
          | [] => .error (.badLayout tag .annotationTypeMissing)
          | first :: rest =>
              match first.text? with
              | none => .error (.badLayout tag .annotationTypeNotText)
              | some typeName => (compilePairs tag rest).map (.annotationValue typeName)
      | some .array => (compileItems tag values).map .array

def compilePairs (tag : Char) : List SpecToken → Except Fault (List (String × ExpectedElement))
  | [] => .ok []
  | .pair name spec :: rest => do
      let value ← compile spec
      let pairs ← compilePairs tag rest
      return (name, value) :: pairs
  | _ => .error (.badLayout tag .annotationElementNotPair)

def compileItems (tag : Char) : List SpecToken → Except Fault (List ExpectedElement)
  | [] => .ok []
  | .nested spec :: rest => do
      let item ← compile spec
      let items ← compileItems tag rest
      return item :: items
  | _ => .error (.badLayout tag .arrayItemNotNested)

end

mutual

/-- The specification of an expected value, with text tokens throughout. -/
def ofElement : ExpectedElement → Spec
  | .literal kind value => .mk kind.symbol [.text value]
  | .enumConstant typeName constantName =>
      .mk Tag.enumConstant.symbol [.text typeName, .text constantName]
  | .classLiteral descriptor => .mk Tag.classLiteral.symbol [.text descriptor]
  | .annotationValue typeName pairs =>
      .mk Tag.annotationValue.symbol (.text typeName :: tokensOfPairs pairs)
  | .array items => .mk Tag.array.symbol (tokensOfItems items)

def tokensOfPairs : List (String × ExpectedElement) → List SpecToken
  | [] => []
  | (name, value) :: rest => .pair name (ofElement value) :: tokensOfPairs rest

def tokensOfItems : List ExpectedElement → List SpecToken
  | [] => []
  | item :: rest => .nested (ofElement item) :: tokensOfItems rest

end

end Spec

namespace ExpectedElement

def leafText (pool : ConstantPool) : LeafRole → UInt16 → Except Fault String
  | .literal kind, index => do
      let value ← Scalar.resolve pool kind index
      match value.toToken kind with
      | .ok token => .ok token
      | .error cause => .error (.badLayout kind.symbol (.unrenderable cause))
  | _, index => pool.utf8 index

/-- Renders a decoded value, stopping at the first leaf that has no text. -/
def ofDecoded (pool : ConstantPool) (value : DecodedElement) : Except Fault ExpectedElement :=
  value.traverse (leafText pool)

end ExpectedElement

end AnnotationDefaults
