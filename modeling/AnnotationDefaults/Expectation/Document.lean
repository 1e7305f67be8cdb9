import AnnotationDefaults.Expectation.NameMap
import AnnotationDefaults.Expectation.Reading
import AnnotationDefaults.Expectation.Spec
import AnnotationDefaults.Json.Tree

set_option autoImplicit false

/-!
Sets of expectations, one for each method name, and the documents that write them.
Compiling goes through the names in ascending order and stops at the first failure.
A document and the specifications right inside it skip members that they do not
know, whatever those hold and however deep it nests; everything else has to have a
value and nests within a bound. Of two specifications for one method the later
counts, but the earlier has to be one too.
-/

namespace AnnotationDefaults

abbrev ExpectationSet := NameMap ExpectedElement

abbrev ExpectationDocument := NameMap Spec

namespace ExpectationSet

def compileEntries : List (String × Spec) → Except Fault (List (String × ExpectedElement))
  | [] => .ok []
  | (name, spec) :: rest => do
      let value ← spec.compile
      let values ← compileEntries rest
      return (name, value) :: values

def ofDocument (document : ExpectationDocument) : Except Fault ExpectationSet := do
  return NameMap.ofList (← compileEntries document.entries)

def toDocument (expectations : ExpectationSet) : ExpectationDocument :=
  NameMap.map Spec.ofElement expectations

end ExpectationSet

/-- The greatest number of nested containers that a reader follows. -/
def nestingLimit : Nat := 127

namespace Spec

def readPart? (levels : Nat) (part : Json.Tree) : Option Reading :=
  (part.value? levels).map Reading.ofJson

def readField? (levels : Nat) : Option Json.Tree → Option (Option Reading)
  | none => some none
  | some part => (readPart? levels part).map some

/-- The specification of a tree whose containers are at most `levels` deep, apart
from what is skipped. Every name has to be a text. -/
def ofTree? (levels : Nat) : Json.Tree → Option Spec
  | .array items =>
      if levels = 0 then none
      else do Reading.specOfItems? (← items.mapM (readPart? (levels - 1)))
  | .object members =>
      if levels = 0 ∨ members.any (·.1.isNone) then none
      else do
        let tag ← readField? (levels - 1) (← Reading.field? (some "tag") members)
        let values ← readField? (levels - 1) (← Reading.field? (some "values") members)
        Reading.specOfFields? tag values
  | _ => none

def parse? (symbols : List Utf8.Symbol) : Option Spec := do
  ofTree? nestingLimit (← Json.Tree.parse? symbols)

end Spec

def ExpectedElement.ofSymbols (symbols : List Utf8.Symbol) : Except Fault ExpectedElement :=
  match Spec.parse? symbols with
  | some spec => spec.compile
  | none => .error .notADocument

namespace ExpectationDocument

def methodsOfTree? (levels : Nat) : Json.Tree → Option (List (String × Spec))
  | .object members =>
      if levels = 0 then none
      else members.mapM fun (name, part) => do
        return (← name, ← Spec.ofTree? (levels - 1) part)
  | _ => none

/-- The document of a tree: an object with a table of methods, or an array of
exactly that table. -/
def ofTree? : Json.Tree → Option ExpectationDocument
  | .array [methods] => do
      return NameMap.ofList (← methodsOfTree? (nestingLimit - 1) methods)
  | .object members =>
      if members.any (·.1.isNone) then none
      else do
        let methods ← ← Reading.field? (some "methods") members
        return NameMap.ofList (← methodsOfTree? (nestingLimit - 1) methods)
  | _ => none

def parse? (symbols : List Utf8.Symbol) : Option ExpectationDocument := do
  ofTree? (← Json.Tree.parse? symbols)

def methodsToJson (document : ExpectationDocument) : Json :=
  .object (document.entries.map fun entry => (entry.1, entry.2.toJson))

def toJson (document : ExpectationDocument) : Json :=
  .object [("methods", methodsToJson document)]

end ExpectationDocument

namespace ExpectationSet

def ofSymbols (symbols : List Utf8.Symbol) : Except Fault ExpectationSet :=
  match ExpectationDocument.parse? symbols with
  | some document => ofDocument document
  | none => .error .notADocument

def ofBytes (bytes : List UInt8) : Except Fault ExpectationSet :=
  ofSymbols (Utf8.symbols bytes)

end ExpectationSet

end AnnotationDefaults
