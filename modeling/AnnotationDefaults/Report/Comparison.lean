import AnnotationDefaults.Element.Basic
import AnnotationDefaults.Report.Outcome

set_option autoImplicit false

/-!
Comparison of a decoded value with an expected one. Every comparison is recorded,
and a failure stops only the subtree in which it occurs: a tag mismatch, an array
of another length, or a reference that does not resolve. Named values are compared
in the order of the expectation, each with the first value of its name.
-/

namespace AnnotationDefaults

namespace Comparison

def memberPath (path name : String) : String := path ++ "." ++ name

def itemPath (path : String) (position : Nat) : String :=
  path ++ "[" ++ Integer.render position ++ "]"

def tagOutcome (path : String) (expected found : Tag) : Outcome :=
  ⟨path, "check tag " ++ expected.label,
    if expected = found then .agreed else .tagMismatch expected found⟩

def foundText (kind : LiteralTag) (value : Scalar) : String :=
  match value.toToken kind with
  | .ok token => token
  | .error _ => value.display

def literalCheck (pool : ConstantPool) (kind : LiteralTag) (index : UInt16) (token : String) :
    Check :=
  match Scalar.resolve pool kind index with
  | .error cause => .malformed (.fault cause)
  | .ok found =>
      match Scalar.ofToken kind token with
      | .error cause => .malformed (.token cause)
      | .ok wanted =>
          if found.agrees wanted then .agreed
          else .valueMismatch token (foundText kind found)

def literalOutcome (pool : ConstantPool) (path : String) (kind : LiteralTag) (index : UInt16)
    (token : String) : Outcome :=
  ⟨path, "check " ++ kind.name ++ " value", literalCheck pool kind index token⟩

def textCheck (pool : ConstantPool) (index : UInt16) (token : String) : Check :=
  match pool.utf8 index with
  | .error cause => .malformed (.fault cause)
  | .ok found => if found = token then .agreed else .valueMismatch token found

def textOutcome (pool : ConstantPool) (path what : String) (index : UInt16) (token : String) :
    Outcome :=
  ⟨path, "check " ++ what, textCheck pool index token⟩

def missingOutcome (path name : String) (side : Side) : Outcome :=
  ⟨path, "find element " ++ name, .missingField name side⟩

/-- The values of an annotation under their resolved names, or the first failure. -/
def resolveNames (pool : ConstantPool) :
    List (UInt16 × DecodedElement) → Except Fault (List (String × DecodedElement))
  | [] => .ok []
  | (index, value) :: rest => do
      let name ← pool.utf8 index
      let named ← resolveNames pool rest
      return (name, value) :: named

def firstNamed? (name : String) (named : List (String × DecodedElement)) :
    Option DecodedElement :=
  (named.find? fun pair => pair.1 == name).map (·.2)

def unexpectedOutcomes (path : String) (named : List (String × DecodedElement))
    (expected : List String) : List Outcome :=
  (named.filter fun pair => !expected.contains pair.1).map fun pair =>
    missingOutcome path pair.1 .expected

def lacksSome (named : List (String × DecodedElement)) (expected : List String) : Bool :=
  expected.any fun name => (firstNamed? name named).isNone

/-- The count comparison, recorded only if it fails while no name is missing. -/
def countOutcomes (path : String) (named : List (String × DecodedElement))
    (expected : List String) : List Outcome :=
  if !lacksSome named expected && (unexpectedOutcomes path named expected).isEmpty &&
      named.length != expected.length then
    [⟨path, "check element count", .arityMismatch expected.length named.length⟩]
  else []

mutual

/-- Compares a value at a path with what is expected there. -/
def outcomesAt (pool : ConstantPool) (path : String) (node : DecodedElement) :
    ExpectedElement → List Outcome
  | .literal kind token =>
      tagOutcome path (.literal kind) node.tag ::
        match node with
        | .literal kind' index =>
            if kind = kind' then [literalOutcome pool path kind index token] else []
        | _ => []
  | .enumConstant typeName constantName =>
      tagOutcome path .enumConstant node.tag ::
        match node with
        | .enumConstant typeIndex constantIndex =>
            [textOutcome pool path "enum type" typeIndex typeName,
              textOutcome pool path "enum constant" constantIndex constantName]
        | _ => []
  | .classLiteral descriptor =>
      tagOutcome path .classLiteral node.tag ::
        match node with
        | .classLiteral index => [textOutcome pool path "class descriptor" index descriptor]
        | _ => []
  | .annotationValue typeName expected =>
      tagOutcome path .annotationValue node.tag ::
        match node with
        | .annotationValue typeIndex pairs =>
            textOutcome pool path "annotation type" typeIndex typeName ::
              match resolveNames pool pairs with
              | .error cause => [⟨path, "resolve element name", .malformed (.fault cause)⟩]
              | .ok named =>
                  pairOutcomes pool path named expected ++
                    unexpectedOutcomes path named (expected.map (·.1)) ++
                    countOutcomes path named (expected.map (·.1))
        | _ => []
  | .array expected =>
      tagOutcome path .array node.tag ::
        match node with
        | .array items =>
            if items.length = expected.length then
              ⟨path, "check array length", .agreed⟩ :: itemOutcomes pool path 0 items expected
            else
              [⟨path, "check array length", .arityMismatch expected.length items.length⟩]
        | _ => []

/-- Compares named values in the order of the expectation. -/
def pairOutcomes (pool : ConstantPool) (path : String) (named : List (String × DecodedElement)) :
    List (String × ExpectedElement) → List Outcome
  | [] => []
  | (name, expected) :: rest =>
      (match firstNamed? name named with
        | some value => outcomesAt pool (memberPath path name) value expected
        | none => [missingOutcome path name .node]) ++
        pairOutcomes pool path named rest

def itemOutcomes (pool : ConstantPool) (path : String) (position : Nat) :
    List DecodedElement → List ExpectedElement → List Outcome
  | item :: items, expected :: rest =>
      outcomesAt pool (itemPath path position) item expected ++
        itemOutcomes pool path (position + 1) items rest
  | _, _ => []

end

def outcomes (pool : ConstantPool) (node : DecodedElement) (expected : ExpectedElement) :
    List Outcome :=
  outcomesAt pool Outcome.rootPath node expected

end Comparison

end AnnotationDefaults
