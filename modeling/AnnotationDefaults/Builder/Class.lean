import AnnotationDefaults.Builder.Pool
import AnnotationDefaults.Expectation.Document

set_option autoImplicit false

/-!
Class files under construction. A builder holds an annotation interface and takes
one step at a time: a method with a default, without one, or with attributes as they
come, or a constant on its own. The methods are written after everything else, for the
pool in front of them grows until the last step.
-/

namespace AnnotationDefaults

/-- A method under construction; an attribute is the index of its name and its contents. -/
structure MethodBuilder where
  name : String
  nameIndex : UInt16
  descriptorIndex : UInt16
  attributes : List (UInt16 × List UInt8)
  default : Option Literal

structure ClassBuilder where
  pool : PoolBuilder
  thisClass : UInt16
  superClass : UInt16
  interface : UInt16
  methods : List MethodBuilder

namespace ClassBuilder

inductive Step where
  | element (name : String) (default : Literal)
  | bare (name descriptor : String)
  | withAttributes (name descriptor : String) (attributes : List (String × List UInt8))
  | text (content : String)
  | integer (value : Int32)
  | encode (literal : Literal)

inductive Answer where
  | declared
  | index (value : UInt16)
  | bytes (value : List UInt8)
  deriving DecidableEq, Repr

def start (name : String) : ClassBuilder :=
  let (thisClass, pool) := (PoolBuilder.intern (.classRef name)).run .empty
  let (superClass, pool) := (PoolBuilder.intern (.classRef "java/lang/Object")).run pool
  let (interface, pool) :=
    (PoolBuilder.intern (.classRef "java/lang/annotation/Annotation")).run pool
  ⟨pool, thisClass, superClass, interface, []⟩

/-- Runs a computation on the pool. -/
def onPool {α : Type} (computation : StateM PoolBuilder α) : StateM ClassBuilder α :=
  fun builder =>
    let (value, pool) := computation.run builder.pool
    (value, { builder with pool })

def text (content : String) : StateM ClassBuilder UInt16 := onPool (PoolBuilder.text content)

def pushMethod (name descriptor : String) (attributes : List (UInt16 × List UInt8))
    (default : Option Literal) : StateM ClassBuilder Unit := do
  let nameIndex ← text name
  let descriptorIndex ← text descriptor
  modify fun builder => { builder with
    methods := builder.methods ++ [⟨name, nameIndex, descriptorIndex, attributes, default⟩] }

def internAttributes :
    List (String × List UInt8) → StateM ClassBuilder (List (UInt16 × List UInt8))
  | [] => return []
  | (name, info) :: rest => do
      let nameIndex ← text name
      let rest ← internAttributes rest
      return (nameIndex, info) :: rest

def perform : Step → StateM ClassBuilder Answer
  | .element name default => do
      let attributeIndex ← text "AnnotationDefault"
      let info ← onPool (PoolBuilder.encode default)
      pushMethod name ("()" ++ default.descriptor) [(attributeIndex, info)] default
      return .declared
  | .bare name descriptor => do
      pushMethod name descriptor [] none
      return .declared
  | .withAttributes name descriptor attributes => do
      let attributes ← internAttributes attributes
      pushMethod name descriptor attributes none
      return .declared
  | .text content => return .index (← text content)
  | .integer value => return .index (← onPool (PoolBuilder.intern (.integer value)))
  | .encode literal => return .bytes (← onPool (PoolBuilder.encode literal))

def step (request : Step) (builder : ClassBuilder) : Answer × ClassBuilder :=
  (perform request).run builder

def run (requests : List Step) (builder : ClassBuilder) : ClassBuilder :=
  requests.foldl (fun builder request => (step request builder).2) builder

/-- Public and abstract. -/
def methodFlags : UInt16 := 0x0401

/-- Public, abstract, an interface and an annotation. -/
def classFlags : UInt16 := 0x2601

def methodBytes (built : MethodBuilder) : List UInt8 :=
  bigEndian 2 methodFlags.toNat ++ bigEndian 2 built.nameIndex.toNat ++
    bigEndian 2 built.descriptorIndex.toNat ++ bigEndian 2 built.attributes.length ++
    built.attributes.flatMap fun (nameIndex, info) =>
      bigEndian 2 nameIndex.toNat ++ bigEndian 4 info.length ++ info

def build (builder : ClassBuilder) : List UInt8 :=
  bigEndian 4 0xcafebabe ++ bigEndian 2 0 ++ bigEndian 2 65 ++
    bigEndian 2 builder.pool.leaveSlotZero.next.toNat ++ builder.pool.bytes ++
    bigEndian 2 classFlags.toNat ++ bigEndian 2 builder.thisClass.toNat ++
    bigEndian 2 builder.superClass.toNat ++ bigEndian 2 1 ++
    bigEndian 2 builder.interface.toNat ++ bigEndian 2 0 ++
    bigEndian 2 builder.methods.length ++ builder.methods.flatMap methodBytes ++ bigEndian 2 0

/-- The document that the defaults declared so far satisfy; of one name the last
declaration counts. -/
def document (builder : ClassBuilder) : ExpectationDocument :=
  NameMap.ofList (builder.methods.filterMap fun built =>
    built.default.map fun default => (built.name, default.toSpec))

end ClassBuilder

end AnnotationDefaults
