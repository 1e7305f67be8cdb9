import AnnotationDefaults.ClassFile.Format
import AnnotationDefaults.Expectation.Document
import AnnotationDefaults.Report.Output

set_option autoImplicit false

/-!
The defaults of a class file, read out as expectations. A dump lists each method
that carries a default with its specification and both lengths, and the methods that
carry none. It has a text form and a JSON form; the latter is an expectation
document. Specifications and lengths are kept in maps of their own: the JSON form
writes the two one after the other, and the text form goes through both side by side.
-/

namespace AnnotationDefaults

structure DumpLengths where
  declared : Nat
  computed : Nat

structure DumpEntry where
  spec : Spec
  lengths : DumpLengths

/-- The defaults of a class file and their lengths by method name, and the methods
without a default in declaration order. -/
structure Dump where
  defaults : NameMap Spec
  lengths : NameMap DumpLengths
  withoutDefault : List String

def DumpLengths.toJson (lengths : DumpLengths) : Json :=
  .object [("declared", .natural lengths.declared), ("computed", .natural lengths.computed)]

def DumpEntry.ofAttribute (pool : ConstantPool) (entry : Attribute) : Except Fault DumpEntry := do
  let default ← AnnotationDefault.ofAttribute entry
  let expected ← ExpectedElement.ofDecoded pool default.value
  return ⟨.ofElement expected, default.declaredLength, default.value.encodedSize⟩

namespace Dump

def empty : Dump := ⟨.empty, .empty, []⟩

def addDefault (dump : Dump) (name : String) (entry : DumpEntry) : Dump :=
  { dump with
    defaults := dump.defaults.insert name entry.spec
    lengths := dump.lengths.insert name entry.lengths }

def addMethod (pool : ConstantPool) (dump : Dump) (member : Member) : Except Fault Dump := do
  let name ← member.name pool
  match member.defaults pool with
  | [] => return { dump with withoutDefault := dump.withoutDefault ++ [name] }
  | first :: _ => return dump.addDefault name (← DumpEntry.ofAttribute pool first)

def ofClassFile (file : ClassFile) : Except Fault Dump :=
  file.methods.foldlM (addMethod file.pool) empty

def document (dump : Dump) : ExpectationDocument := dump.defaults

def toJson (className : String) (dump : Dump) : Json :=
  .object [("class", .string className),
    ("methods", dump.document.methodsToJson),
    ("lengths", .object (dump.lengths.entries.map fun entry => (entry.1, entry.2.toJson))),
    ("without_default", .array (dump.withoutDefault.map .string))]

def pathLine (path : String) : String := "path: " ++ path

/-- The record of a default: fields between tabs, the tokens in compact form. -/
def defaultLine (name : String) (spec : Spec) (lengths : DumpLengths) : String :=
  "  " ++ name ++ "\t" ++ spec.tag.toString ++ "\tdeclared=" ++
    Integer.render lengths.declared ++ "\tcomputed=" ++ Integer.render lengths.computed ++ "\t" ++
    (Json.array (Spec.tokensToJson spec.values)).compact

/-- The records of all defaults: the specifications in order, each with the lengths
that stand in the same place of the other map. -/
def defaultLines (dump : Dump) : List String :=
  (dump.defaults.entries.zip (dump.lengths.entries.map (·.2))).map fun (entry, lengths) =>
    defaultLine entry.1 entry.2 lengths

def lines (className : String) (dump : Dump) : List String :=
  ["class: " ++ className, "defaults: " ++ Integer.render dump.defaults.size] ++
    dump.defaultLines ++ dump.withoutDefault.map fun name => "  " ++ name ++ "\t-"

end Dump

end AnnotationDefaults
