import AnnotationDefaults.Json.Number
import AnnotationDefaults.Text.Quoted

set_option autoImplicit false

/-!
JSON values and their two written forms. The compact form has no blanks; the
indented form puts every item on a line of its own, two blanks deeper than its
container, and writes an empty container without a line break. Members keep the
order of the value.
-/

namespace AnnotationDefaults

/-- A JSON value; members of an object stay in order and may repeat a name. -/
inductive Json where
  | null
  | bool (value : Bool)
  | number (value : Json.Number)
  | string (content : String)
  | array (items : List Json)
  | object (members : List (String × Json))
  deriving Inhabited

namespace Json

def natural (value : Nat) : Json := .number (.integer value)

mutual

/-- How many containers lie around the innermost value, itself included. -/
def nesting : Json → Nat
  | .array items => nestingOfItems items + 1
  | .object members => nestingOfMembers members + 1
  | _ => 0

def nestingOfItems : List Json → Nat
  | [] => 0
  | item :: rest => max item.nesting (nestingOfItems rest)

def nestingOfMembers : List (String × Json) → Nat
  | [] => 0
  | (_, value) :: rest => max value.nesting (nestingOfMembers rest)

end

def quote : Char := '\x22'

/-- One character inside a string: the delimiter, the backslash and controls are
escaped, by a letter where there is one. -/
def escapeChar (symbol : Char) : List Char :=
  if symbol = quote then ['\\', quote]
  else if symbol = '\\' then ['\\', '\\']
  else if symbol = '\x08' then ['\\', 'b']
  else if symbol = '\x0c' then ['\\', 'f']
  else if symbol = '\n' then ['\\', 'n']
  else if symbol = '\r' then ['\\', 'r']
  else if symbol = '\t' then ['\\', 't']
  else if symbol.toNat < 0x20 then '\\' :: 'u' :: Hex.fixed .lower 4 symbol.toNat
  else [symbol]

def stringLiteral (content : String) : List Char :=
  quote :: content.toList.flatMap escapeChar ++ [quote]

def openBrace : Char := '\x7b'

def closeBrace : Char := '\x7d'

def scalarText : Json → List Char
  | .null => ['n', 'u', 'l', 'l']
  | .bool true => ['t', 'r', 'u', 'e']
  | .bool false => ['f', 'a', 'l', 's', 'e']
  | .number value => value.text.toList
  | .string content => stringLiteral content
  | _ => []

mutual

def compactChars : Json → List Char
  | .array [] => ['[', ']']
  | .array (first :: rest) => '[' :: compactChars first ++ compactItems rest
  | .object [] => [openBrace, closeBrace]
  | .object ((name, value) :: rest) =>
      openBrace :: stringLiteral name ++ ':' :: compactChars value ++ compactMembers rest
  | scalar => scalarText scalar

def compactItems : List Json → List Char
  | [] => [']']
  | item :: rest => ',' :: compactChars item ++ compactItems rest

def compactMembers : List (String × Json) → List Char
  | [] => [closeBrace]
  | (name, value) :: rest =>
      ',' :: stringLiteral name ++ ':' :: compactChars value ++ compactMembers rest

end

def lineBreak (depth : Nat) : List Char := '\n' :: List.replicate (2 * depth) ' '

mutual

def indentedChars (depth : Nat) : Json → List Char
  | .array [] => ['[', ']']
  | .array (first :: rest) =>
      '[' :: lineBreak (depth + 1) ++ indentedChars (depth + 1) first ++
        indentedItems depth rest
  | .object [] => [openBrace, closeBrace]
  | .object ((name, value) :: rest) =>
      openBrace :: lineBreak (depth + 1) ++ stringLiteral name ++ ':' :: ' ' ::
        indentedChars (depth + 1) value ++ indentedMembers depth rest
  | scalar => scalarText scalar

def indentedItems (depth : Nat) : List Json → List Char
  | [] => lineBreak depth ++ [']']
  | item :: rest =>
      ',' :: lineBreak (depth + 1) ++ indentedChars (depth + 1) item ++
        indentedItems depth rest

def indentedMembers (depth : Nat) : List (String × Json) → List Char
  | [] => lineBreak depth ++ [closeBrace]
  | (name, value) :: rest =>
      ',' :: lineBreak (depth + 1) ++ stringLiteral name ++ ':' :: ' ' ::
        indentedChars (depth + 1) value ++ indentedMembers depth rest

end

def compact (value : Json) : String := String.ofList value.compactChars

def indented (value : Json) : String := String.ofList (value.indentedChars 0)

end Json

end AnnotationDefaults
