import AnnotationDefaults.Report.Comparison

set_option autoImplicit false

/-!
What a comparison records, kind by kind. Values of different tags get one outcome. Values of
one tag get an outcome for each of their texts, and behind those the outcomes of their
children: named values in the order of the expectation, items in order.
-/

namespace AnnotationDefaults.Comparison

variable {pool : ConstantPool} {path : String} {node : DecodedElement}
  {expected : ExpectedElement}

theorem outcomesAt_of_tag_ne (hTag : expected.tag ≠ node.tag) :
    outcomesAt pool path node expected = [tagOutcome path expected.tag node.tag] := by
  cases expected with
  | literal kind token =>
      cases node with
      | literal kind' index =>
          have hKind : ¬ kind = kind' := fun hSame => hTag (congrArg Tag.literal hSame)
          simp only [outcomesAt, Element.tag, if_neg hKind]
      | _ => rfl
  | enumConstant typeName constantName =>
      cases node with
      | enumConstant typeIndex constantIndex => exact absurd rfl hTag
      | _ => rfl
  | classLiteral descriptor =>
      cases node with
      | classLiteral index => exact absurd rfl hTag
      | _ => rfl
  | annotationValue typeName expected =>
      cases node with
      | annotationValue typeIndex pairs => exact absurd rfl hTag
      | _ => rfl
  | array expected =>
      cases node with
      | array items => exact absurd rfl hTag
      | _ => rfl

theorem outcomesAt_literal {kind : LiteralTag} {index : UInt16} {token : String} :
    outcomesAt pool path (.literal kind index) (.literal kind token) =
      [tagOutcome path (.literal kind) (.literal kind),
        literalOutcome pool path kind index token] := by
  simp only [outcomesAt, Element.tag, if_pos]

/-! ### Annotations -/

def memberOutcomes (pool : ConstantPool) (path : String) (named : List (String × DecodedElement))
    (wanted : String × ExpectedElement) : List Outcome :=
  match firstNamed? wanted.1 named with
  | some value => outcomesAt pool (memberPath path wanted.1) value wanted.2
  | none => [missingOutcome path wanted.1 .node]

theorem pairOutcomes_eq_flatMap {named : List (String × DecodedElement)}
    {wanted : List (String × ExpectedElement)} :
    pairOutcomes pool path named wanted = wanted.flatMap (memberOutcomes pool path named) := by
  induction wanted with
  | nil => rfl
  | cons pair rest ih =>
      rw [List.flatMap_cons, ← ih]
      cases hFound : firstNamed? pair.1 named with
      | none => simp only [pairOutcomes, memberOutcomes, hFound]
      | some value => simp only [pairOutcomes, memberOutcomes, hFound]

theorem outcomesAt_annotationValue {typeIndex : UInt16} {typeName : String}
    {pairs : List (UInt16 × DecodedElement)} {named : List (String × DecodedElement)}
    {wanted : List (String × ExpectedElement)} (hNamed : resolveNames pool pairs = .ok named) :
    outcomesAt pool path (.annotationValue typeIndex pairs) (.annotationValue typeName wanted) =
      tagOutcome path .annotationValue .annotationValue ::
        textOutcome pool path "annotation type" typeIndex typeName ::
          (wanted.flatMap (memberOutcomes pool path named) ++
            unexpectedOutcomes path named (wanted.map (·.1)) ++
            countOutcomes path named (wanted.map (·.1))) := by
  rw [outcomesAt, ← pairOutcomes_eq_flatMap]
  simp only [hNamed, Element.tag]

theorem unexpectedOutcomes_eq_map {named : List (String × DecodedElement)} {names : List String} :
    unexpectedOutcomes path named names =
      ((named.map (·.1)).filter fun name => !names.contains name).map fun name =>
        missingOutcome path name .expected := by
  rw [unexpectedOutcomes, List.filter_map, List.map_map]
  rfl

theorem unexpectedOutcomes_eq_nil {named : List (String × DecodedElement)} {names : List String}
    (hNames : ∀ name ∈ named.map (·.1), name ∈ names) :
    unexpectedOutcomes path named names = [] := by
  rw [unexpectedOutcomes, List.map_eq_nil_iff, List.filter_eq_nil_iff]
  intro entry hEntry
  have hName := hNames entry.1 (List.mem_map_of_mem hEntry)
  simp only [List.contains_iff_mem.2 hName, Bool.not_true, Bool.false_eq_true, not_false_eq_true]

theorem outcomesAt_array {items : List DecodedElement} {wanted : List ExpectedElement}
    (hLength : items.length = wanted.length) :
    outcomesAt pool path (.array items) (.array wanted) =
      tagOutcome path .array .array :: ⟨path, "check array length", .agreed⟩ ::
        itemOutcomes pool path 0 items wanted := by
  simp only [outcomesAt, Element.tag, if_pos hLength]

theorem outcomesAt_array_of_length_ne {items : List DecodedElement}
    {wanted : List ExpectedElement} (hLength : items.length ≠ wanted.length) :
    outcomesAt pool path (.array items) (.array wanted) =
      [tagOutcome path .array .array,
        ⟨path, "check array length", .arityMismatch wanted.length items.length⟩] := by
  simp only [outcomesAt, Element.tag, if_neg hLength]

end AnnotationDefaults.Comparison
