import AnnotationDefaults.Element.Basic

set_option autoImplicit false

/-!
Decidable equality of element values. The test walks both trees at once and is
true exactly for equal trees.
-/

namespace AnnotationDefaults

namespace Element

variable {α : Type} [DecidableEq α]

mutual

def same : Element α → Element α → Bool
  | .literal kind value, .literal kind' value' => kind == kind' && value == value'
  | .enumConstant typeName constantName, .enumConstant typeName' constantName' =>
      typeName == typeName' && constantName == constantName'
  | .classLiteral descriptor, .classLiteral descriptor' => descriptor == descriptor'
  | .annotationValue typeName pairs, .annotationValue typeName' pairs' =>
      typeName == typeName' && samePairs pairs pairs'
  | .array items, .array items' => sameItems items items'
  | _, _ => false

def samePairs : List (α × Element α) → List (α × Element α) → Bool
  | [], [] => true
  | (name, value) :: rest, (name', value') :: rest' =>
      name == name' && same value value' && samePairs rest rest'
  | _, _ => false

def sameItems : List (Element α) → List (Element α) → Bool
  | [], [] => true
  | item :: rest, item' :: rest' => same item item' && sameItems rest rest'
  | _, _ => false

end

mutual

theorem same_iff : (left right : Element α) → (same left right = true ↔ left = right)
  | .literal _ _, right => by cases right <;> simp [same]
  | .enumConstant _ _, right => by cases right <;> simp [same]
  | .classLiteral _, right => by cases right <;> simp [same]
  | .annotationValue _ pairs, right => by
      cases right with
      | annotationValue _ pairs' => simp [same, samePairs_iff pairs pairs']
      | _ => simp [same]
  | .array items, right => by
      cases right with
      | array items' => simp [same, sameItems_iff items items']
      | _ => simp [same]

theorem samePairs_iff :
    (left right : List (α × Element α)) → (samePairs left right = true ↔ left = right)
  | [], right => by cases right <;> simp [samePairs]
  | (_, value) :: rest, right => by
      cases right with
      | nil => simp [samePairs]
      | cons pair rest' =>
          simp [samePairs, same_iff value pair.2, samePairs_iff rest rest', Prod.ext_iff]

theorem sameItems_iff :
    (left right : List (Element α)) → (sameItems left right = true ↔ left = right)
  | [], right => by cases right <;> simp [sameItems]
  | item :: rest, right => by
      cases right with
      | nil => simp [sameItems]
      | cons item' rest' => simp [sameItems, same_iff item item', sameItems_iff rest rest']

end

instance : DecidableEq (Element α) := fun left right =>
  decidable_of_iff (same left right = true) (same_iff left right)

end Element

end AnnotationDefaults
