import AnnotationDefaults.Json.Lexeme

set_option autoImplicit false

/-!
Trees of JSON documents. The builder takes one lexeme at a time and keeps the
containers that are still open on a stack, so any depth of nesting is read. A tree
has a value within a bound on nesting, provided that every string and number in it
denotes something.
-/

namespace AnnotationDefaults.Json

/-- A document's tree; strings, names and numbers that denote nothing are kept. -/
inductive Tree where
  | null
  | bool (value : Bool)
  | number (value : Option Number)
  | string (content : Option String)
  | array (items : List Tree)
  | object (members : List (Option String × Tree))

namespace Tree

mutual

/-- The value of a tree with at most `levels` nested containers. -/
def value? (levels : Nat) : Tree → Option Json
  | .null => some .null
  | .bool value => some (.bool value)
  | .number value => value.map .number
  | .string content => content.map .string
  | .array items =>
      if levels = 0 then none else (valuesOfItems? (levels - 1) items).map .array
  | .object members =>
      if levels = 0 then none else (valuesOfMembers? (levels - 1) members).map .object

def valuesOfItems? (levels : Nat) : List Tree → Option (List Json)
  | [] => some []
  | item :: rest => do
      let value ← value? levels item
      let values ← valuesOfItems? levels rest
      return value :: values

def valuesOfMembers? (levels : Nat) : List (Option String × Tree) → Option (List (String × Json))
  | [] => some []
  | (name, item) :: rest => do
      let name ← name
      let value ← value? levels item
      let values ← valuesOfMembers? levels rest
      return (name, value) :: values

end

/-- A container that is still open; what it holds is in reverse order. -/
inductive Frame where
  | array (items : List Tree)
  | object (members : List (Option String × Tree))
  | member (members : List (Option String × Tree)) (name : Option String)

/-- What the builder awaits; the innermost open container comes first. -/
inductive State where
  | value (frames : List Frame)
  | firstItem (frames : List Frame)
  | firstName (frames : List Frame)
  | name (members : List (Option String × Tree)) (frames : List Frame)
  | colon (members : List (Option String × Tree)) (name : Option String) (frames : List Frame)
  | separator (frames : List Frame)
  | done (tree : Tree)

def deliver (tree : Tree) : List Frame → State
  | [] => .done tree
  | .array items :: frames => .separator (.array (tree :: items) :: frames)
  | .member members name :: frames => .separator (.object ((name, tree) :: members) :: frames)
  | .object members :: frames => .separator (.object members :: frames)

def begin? (frames : List Frame) : Lexeme → Option State
  | .null => some (deliver .null frames)
  | .bool value => some (deliver (.bool value) frames)
  | .number value => some (deliver (.number value) frames)
  | .string content => some (deliver (.string content) frames)
  | .openArray => some (.firstItem (.array [] :: frames))
  | .openObject => some (.firstName frames)
  | _ => none

def step? : State → Lexeme → Option State
  | .value frames, lexeme => begin? frames lexeme
  | .firstItem (.array [] :: frames), .closeArray => some (deliver (.array []) frames)
  | .firstItem frames, lexeme => begin? frames lexeme
  | .firstName frames, .closeObject => some (deliver (.object []) frames)
  | .firstName frames, .string name => some (.colon [] name frames)
  | .name members frames, .string name => some (.colon members name frames)
  | .colon members name frames, .colon => some (.value (.member members name :: frames))
  | .separator (.array items :: frames), .comma => some (.value (.array items :: frames))
  | .separator (.array items :: frames), .closeArray =>
      some (deliver (.array items.reverse) frames)
  | .separator (.object members :: frames), .comma => some (.name members frames)
  | .separator (.object members :: frames), .closeObject =>
      some (deliver (.object members.reverse) frames)
  | _, _ => none

def ofLexemes? (lexemes : List Lexeme) : Option Tree := do
  match ← lexemes.foldlM step? (.value []) with
  | .done tree => some tree
  | _ => none

def parse? (symbols : List Utf8.Symbol) : Option Tree := do
  ofLexemes? (← lex? symbols)

end Tree

end AnnotationDefaults.Json
