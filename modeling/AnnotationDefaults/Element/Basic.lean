import AnnotationDefaults.Element.Tag

set_option autoImplicit false

/-!
Trees of element values. The same shape serves a decoded value, whose leaves are
indices of constants, and an expected value, whose leaves are texts. Each leaf has
a role that its position decides; `traverse` visits the leaves in the order in
which they are encoded and keeps the shape.
-/

namespace AnnotationDefaults

inductive Element (α : Type) where
  | literal (kind : LiteralTag) (value : α)
  | enumConstant (typeName constantName : α)
  | classLiteral (descriptor : α)
  | annotationValue (typeName : α) (pairs : List (α × Element α))
  | array (items : List (Element α))
  deriving Repr

/-- A decoded value: leaves are indices into a constant pool. -/
abbrev DecodedElement := Element UInt16

/-- An expected value: leaves are tokens, descriptors and names. -/
abbrev ExpectedElement := Element String

inductive LeafRole where
  | literal (kind : LiteralTag)
  | enumType
  | enumConstant
  | classDescriptor
  | annotationType
  | pairName
  deriving DecidableEq, Repr

namespace Element

def tag {α : Type} : Element α → Tag
  | .literal kind _ => .literal kind
  | .enumConstant _ _ => .enumConstant
  | .classLiteral _ => .classLiteral
  | .annotationValue _ _ => .annotationValue
  | .array _ => .array

section Traversal

variable {α β : Type} {m : Type → Type} [Monad m]

mutual

/-- Converts every leaf by an effectful function, in encoded order. -/
def traverse (convert : LeafRole → α → m β) : Element α → m (Element β)
  | .literal kind value => do
      return .literal kind (← convert (.literal kind) value)
  | .enumConstant typeName constantName => do
      let typeName ← convert .enumType typeName
      let constantName ← convert .enumConstant constantName
      return .enumConstant typeName constantName
  | .classLiteral descriptor => do
      return .classLiteral (← convert .classDescriptor descriptor)
  | .annotationValue typeName pairs => do
      let typeName ← convert .annotationType typeName
      return .annotationValue typeName (← traversePairs convert pairs)
  | .array items => do
      return .array (← traverseItems convert items)

def traversePairs (convert : LeafRole → α → m β) :
    List (α × Element α) → m (List (β × Element β))
  | [] => return []
  | (name, value) :: rest => do
      let name ← convert .pairName name
      let value ← traverse convert value
      let rest ← traversePairs convert rest
      return (name, value) :: rest

def traverseItems (convert : LeafRole → α → m β) : List (Element α) → m (List (Element β))
  | [] => return []
  | item :: rest => do
      let item ← traverse convert item
      let rest ← traverseItems convert rest
      return item :: rest

end

end Traversal

section Size

variable {α : Type}

mutual

/-- The number of bytes that encode a value, its tag byte included. Leaves are
never looked at, so values of one shape have one size. -/
def encodedSize : Element α → Nat
  | .literal _ _ => 3
  | .enumConstant _ _ => 5
  | .classLiteral _ => 3
  | .annotationValue _ pairs => 5 + pairsSize pairs
  | .array items => 3 + itemsSize items

def pairsSize : List (α × Element α) → Nat
  | [] => 0
  | (_, value) :: rest => 2 + encodedSize value + pairsSize rest

def itemsSize : List (Element α) → Nat
  | [] => 0
  | item :: rest => encodedSize item + itemsSize rest

end

mutual

/-- How many values lie one inside the other, a lone leaf counting one. -/
def depth : Element α → Nat
  | .annotationValue _ pairs => pairsDepth pairs + 1
  | .array items => itemsDepth items + 1
  | _ => 1

def pairsDepth : List (α × Element α) → Nat
  | [] => 0
  | (_, value) :: rest => max (depth value) (pairsDepth rest)

def itemsDepth : List (Element α) → Nat
  | [] => 0
  | item :: rest => max (depth item) (itemsDepth rest)

end

end Size

end Element

end AnnotationDefaults
