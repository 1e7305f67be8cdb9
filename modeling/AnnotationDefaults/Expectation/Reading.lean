import AnnotationDefaults.Expectation.Spec
import AnnotationDefaults.Json.Value

set_option autoImplicit false

/-!
What a JSON value can stand for inside a specification. A token carries no mark of
its kind, so a value is read as every kind at once, from its parts upwards, and the
first kind that fits is taken: a nested specification, a named value, a text, a
number, a truth value. A specification is an object with its fields by name, or an
array with its fields in order; a named value is always an object.
-/

namespace AnnotationDefaults

/-- The kinds of reading that a JSON value admits. -/
structure Reading where
  text : Option String
  spec : Option Spec
  pair : Option SpecToken
  scalar : Option SpecToken
  /-- Every item of an array is a token. -/
  tokens : Option (List SpecToken)

namespace Reading

def nothing : Reading := ⟨none, none, none, none, none⟩

/-- The token that a value stands for: the first kind that fits. -/
def token? (reading : Reading) : Option SpecToken :=
  (reading.spec.map .nested).or (reading.pair.or reading.scalar)

def tagOfText? (content : String) : Option Char :=
  match content.toList with
  | [symbol] => some symbol
  | _ => none

/-- The field of a name: none if the name occurs twice, and otherwise what it holds,
if it occurs. -/
def field? {ν α : Type} [DecidableEq ν] (name : ν) (members : List (ν × α)) :
    Option (Option α) :=
  match members.filter fun member => member.1 = name with
  | [] => some none
  | [(_, value)] => some (some value)
  | _ => none

def specOfFields? (tag : Option Reading) (values : Option Reading) : Option Spec := do
  let tag ← tagOfText? (← (← tag).text)
  match values with
  | none => return .mk tag []
  | some values => return .mk tag (← values.tokens)

def specOfItems? : List Reading → Option Spec
  | [tag] => specOfFields? (some tag) none
  | [tag, values] => specOfFields? (some tag) (some values)
  | _ => none

/-- The specification that an object holds by name; other members are ignored. -/
def specOfMembers? (members : List (String × Reading)) : Option Spec := do
  specOfFields? (← field? "tag" members) (← field? "values" members)

def pairOfMembers? (members : List (String × Reading)) : Option SpecToken := do
  let name ← (← (← field? "name" members)).text
  let value ← (← (← field? "value" members)).spec
  return .pair name value

def ofItems (items : List Reading) : Reading :=
  { nothing with spec := specOfItems? items, tokens := items.mapM token? }

def ofMembers (members : List (String × Reading)) : Reading :=
  { nothing with spec := specOfMembers? members, pair := pairOfMembers? members }

mutual

/-- Reads a value as every kind at once. -/
def ofJson : Json → Reading
  | .null => nothing
  | .bool value => { nothing with scalar := some (.bool value) }
  | .number value => { nothing with scalar := some (.number value) }
  | .string content => { nothing with text := some content, scalar := some (.text content) }
  | .array items => ofItems (readItems items)
  | .object members => ofMembers (readMembers members)

def readItems : List Json → List Reading
  | [] => []
  | item :: rest => ofJson item :: readItems rest

def readMembers : List (String × Json) → List (String × Reading)
  | [] => []
  | (name, value) :: rest => (name, ofJson value) :: readMembers rest

end

end Reading

namespace Spec

def ofJson? (value : Json) : Option Spec := (Reading.ofJson value).spec

mutual

def toJson : Spec → Json
  | .mk tag values =>
      .object [("tag", .string tag.toString), ("values", .array (tokensToJson values))]

def tokenToJson : SpecToken → Json
  | .nested spec => toJson spec
  | .pair name value => .object [("name", .string name), ("value", toJson value)]
  | .text content => .string content
  | .number value => .number value
  | .bool value => .bool value

def tokensToJson : List SpecToken → List Json
  | [] => []
  | token :: rest => tokenToJson token :: tokensToJson rest

end

end Spec

end AnnotationDefaults
