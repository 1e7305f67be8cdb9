import AnnotationDefaults.Proofs.Comparison.Acceptance

set_option autoImplicit false

/-!
Positions in element values. A position is a list of steps, each to a value of a name or to an
item, and has the path that outcomes are labelled with. The leaves of an expectation are
listed in its order, each with the position of the value that it belongs to; no two leaves of
an expectation that repeats no name have the same position and role.
-/

namespace AnnotationDefaults

/-- A step from a value to a value directly inside it. -/
inductive Step where
  | member (name : String)
  | item (position : Nat)
  deriving DecidableEq, Repr

namespace Step

def extend (path : String) : Step → String
  | .member name => Comparison.memberPath path name
  | .item position => Comparison.itemPath path position

/-- The path of the value that the steps lead to from the value at a path. -/
def pathFrom (path : String) (steps : List Step) : String := steps.foldl extend path

end Step

namespace Element

variable {α : Type}

/-- The value that a step leads to. Of several values of a name it is the first. -/
def child? (isNamed : α → String → Bool) : Element α → Step → Option (Element α)
  | .annotationValue _ pairs, .member name =>
      (pairs.find? fun pair => isNamed pair.1 name).map (·.2)
  | .array items, .item position => items[position]?
  | _, _ => none

def reach? (isNamed : α → String → Bool) (element : Element α) : List Step → Option (Element α)
  | [] => some element
  | step :: rest => (element.child? isNamed step).bind fun child => child.reach? isNamed rest

/-- The leaf of a role that belongs to the value itself; names are no leaves of their own. -/
def leaf? : LeafRole → Element α → Option α
  | .literal kind, .literal kind' value => if kind = kind' then some value else none
  | .enumType, .enumConstant typeName _ => some typeName
  | .enumConstant, .enumConstant _ constantName => some constantName
  | .classDescriptor, .classLiteral descriptor => some descriptor
  | .annotationType, .annotationValue typeName _ => some typeName
  | _, _ => none

end Element

namespace DecodedElement

def isNamed (pool : ConstantPool) (index : UInt16) (name : String) : Bool :=
  decide (pool.utf8 index = .ok name)

def indexAt? (pool : ConstantPool) (node : DecodedElement) (steps : List Step)
    (role : LeafRole) : Option UInt16 :=
  (node.reach? (isNamed pool) steps).bind (Element.leaf? role)

end DecodedElement

/-- A text that an expectation asks for, with the position and the role of its leaf. -/
structure ExpectedLeaf where
  steps : List Step
  role : LeafRole
  text : String
  deriving DecidableEq, Repr

namespace ExpectedLeaf

def under (step : Step) (leaf : ExpectedLeaf) : ExpectedLeaf :=
  { leaf with steps := step :: leaf.steps }

def place (leaf : ExpectedLeaf) : List Step × LeafRole := (leaf.steps, leaf.role)

end ExpectedLeaf

namespace ExpectedElement

mutual

/-- The leaves of an expectation in its order: the texts of a value come before those of the
values inside it. -/
def leaves : ExpectedElement → List ExpectedLeaf
  | .literal kind token => [⟨[], .literal kind, token⟩]
  | .enumConstant typeName constantName =>
      [⟨[], .enumType, typeName⟩, ⟨[], .enumConstant, constantName⟩]
  | .classLiteral descriptor => [⟨[], .classDescriptor, descriptor⟩]
  | .annotationValue typeName pairs => ⟨[], .annotationType, typeName⟩ :: leavesOfPairs pairs
  | .array items => leavesOfItems 0 items

def leavesOfPairs : List (String × ExpectedElement) → List ExpectedLeaf
  | [] => []
  | (name, value) :: rest =>
      (leaves value).map (ExpectedLeaf.under (.member name)) ++ leavesOfPairs rest

def leavesOfItems (position : Nat) : List ExpectedElement → List ExpectedLeaf
  | [] => []
  | item :: rest =>
      (leaves item).map (ExpectedLeaf.under (.item position)) ++ leavesOfItems (position + 1) rest

end

/-! ### Leaves of the values inside -/

theorem child?_member_eq_some_iff {typeName name : String} {value : ExpectedElement}
    {pairs : List (String × ExpectedElement)} (hNodup : (pairs.map (·.1)).Nodup) :
    (Element.annotationValue typeName pairs).child? (· == ·) (.member name) = some value ↔
      (name, value) ∈ pairs := by
  rw [Element.child?, Option.map_eq_some_iff]
  constructor
  · intro hGiven
    rcases hGiven with ⟨entry, hEntry, rfl⟩
    have hName := List.find?_some hEntry
    rw [beq_iff_eq] at hName
    rw [← hName]
    exact List.mem_of_find?_eq_some hEntry
  · intro hMem
    exact ⟨(name, value), find?_name_of_mem hNodup hMem, rfl⟩

end ExpectedElement

end AnnotationDefaults
