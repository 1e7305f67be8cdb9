import AnnotationDefaults.Element.Basic
import AnnotationDefaults.Proofs.Success
import Mathlib.Data.List.Forall2

set_option autoImplicit false

/-!
When a conversion of all leaves succeeds. Each kind of value has one equivalence; the
children of a composite value are converted place by place, and each of them has to
succeed.
-/

namespace AnnotationDefaults

section Places

variable {α β : Type} {related : α → β → Prop} {left : List α} {right : List β}

theorem exists_right_of_mem (hRelated : List.Forall₂ related left right) {item : α}
    (hMem : item ∈ left) : ∃ other ∈ right, related item other := by
  induction hRelated with
  | nil => cases hMem
  | cons hFirst hRest ih =>
      rcases List.mem_cons.1 hMem with rfl | hMem
      · exact ⟨_, List.mem_cons_self, hFirst⟩
      · obtain ⟨other, hOther, hItem⟩ := ih hMem
        exact ⟨other, List.mem_cons_of_mem _ hOther, hItem⟩

theorem exists_left_of_mem (hRelated : List.Forall₂ related left right) {other : β}
    (hMem : other ∈ right) : ∃ item ∈ left, related item other := by
  induction hRelated with
  | nil => cases hMem
  | cons hFirst hRest ih =>
      rcases List.mem_cons.1 hMem with rfl | hMem
      · exact ⟨_, List.mem_cons_self, hFirst⟩
      · obtain ⟨item, hItem, hOther⟩ := ih hMem
        exact ⟨item, List.mem_cons_of_mem _ hItem, hOther⟩

theorem forall₂_of_mem {related' : α → β → Prop} (hRelated : List.Forall₂ related left right)
    (hStep : ∀ item, ∀ other ∈ right, related item other → related' item other) :
    List.Forall₂ related' left right := by
  induction hRelated with
  | nil => exact .nil
  | cons hFirst hRest ih =>
      refine .cons (hStep _ _ List.mem_cons_self hFirst) (ih fun item other hOther => ?_)
      exact hStep item other (List.mem_cons_of_mem _ hOther)

end Places

namespace Element

variable {α β ε : Type} {convert : LeafRole → α → Except ε β} {result : Element β}

theorem traverse_literal_eq_ok_iff {kind : LiteralTag} {value : α} :
    traverse convert (.literal kind value) = .ok result ↔
      ∃ converted, convert (.literal kind) value = .ok converted ∧
        result = .literal kind converted := by
  simp only [traverse, bind_eq_ok_iff, pure_eq_ok_iff, @eq_comm _ result]

theorem traverse_enumConstant_eq_ok_iff {typeName constantName : α} :
    traverse convert (.enumConstant typeName constantName) = .ok result ↔
      ∃ convertedType convertedName, convert .enumType typeName = .ok convertedType ∧
        convert .enumConstant constantName = .ok convertedName ∧
        result = .enumConstant convertedType convertedName := by
  simp only [traverse, bind_eq_ok_iff, pure_eq_ok_iff]
  constructor
  · intro hGiven
    rcases hGiven with ⟨convertedType, hType, convertedName, hName, rfl⟩
    exact ⟨convertedType, convertedName, hType, hName, rfl⟩
  · intro hGiven
    rcases hGiven with ⟨convertedType, convertedName, hType, hName, rfl⟩
    exact ⟨convertedType, hType, convertedName, hName, rfl⟩

theorem traverse_classLiteral_eq_ok_iff {descriptor : α} :
    traverse convert (.classLiteral descriptor) = .ok result ↔
      ∃ converted, convert .classDescriptor descriptor = .ok converted ∧
        result = .classLiteral converted := by
  simp only [traverse, bind_eq_ok_iff, pure_eq_ok_iff, @eq_comm _ result]

theorem traversePairs_eq_ok_iff {pairs : List (α × Element α)}
    {converted : List (β × Element β)} :
    traversePairs convert pairs = .ok converted ↔
      List.Forall₂ (fun pair entry => convert .pairName pair.1 = .ok entry.1 ∧
        traverse convert pair.2 = .ok entry.2) pairs converted := by
  induction pairs generalizing converted with
  | nil =>
      rw [traversePairs, pure_eq_ok_iff, List.forall₂_nil_left_iff]
      exact eq_comm
  | cons pair rest ih =>
      rcases pair with ⟨name, value⟩
      simp only [traversePairs, bind_eq_ok_iff, pure_eq_ok_iff, List.forall₂_cons_left_iff]
      constructor
      · intro hGiven
        rcases hGiven with ⟨name', hName, value', hValue, rest', hRest, rfl⟩
        exact ⟨(name', value'), rest', ⟨hName, hValue⟩, ih.1 hRest, rfl⟩
      · intro hGiven
        rcases hGiven with ⟨⟨name', value'⟩, rest', ⟨hName, hValue⟩, hRest, rfl⟩
        exact ⟨name', hName, value', hValue, rest', ih.2 hRest, rfl⟩

theorem traverseItems_eq_ok_iff {items : List (Element α)} {converted : List (Element β)} :
    traverseItems convert items = .ok converted ↔
      List.Forall₂ (fun item entry => traverse convert item = .ok entry) items converted := by
  induction items generalizing converted with
  | nil =>
      rw [traverseItems, pure_eq_ok_iff, List.forall₂_nil_left_iff]
      exact eq_comm
  | cons item rest ih =>
      simp only [traverseItems, bind_eq_ok_iff, pure_eq_ok_iff, List.forall₂_cons_left_iff]
      constructor
      · intro hGiven
        rcases hGiven with ⟨item', hItem, rest', hRest, rfl⟩
        exact ⟨item', rest', hItem, ih.1 hRest, rfl⟩
      · intro hGiven
        rcases hGiven with ⟨item', rest', hItem, hRest, rfl⟩
        exact ⟨item', hItem, rest', ih.2 hRest, rfl⟩

theorem traverse_annotationValue_eq_ok_iff {typeName : α} {pairs : List (α × Element α)} :
    traverse convert (.annotationValue typeName pairs) = .ok result ↔
      ∃ convertedType converted, convert .annotationType typeName = .ok convertedType ∧
        List.Forall₂ (fun pair entry => convert .pairName pair.1 = .ok entry.1 ∧
          traverse convert pair.2 = .ok entry.2) pairs converted ∧
        result = .annotationValue convertedType converted := by
  simp only [traverse, bind_eq_ok_iff, pure_eq_ok_iff, traversePairs_eq_ok_iff]
  constructor
  · intro hGiven
    rcases hGiven with ⟨convertedType, hType, converted, hPairs, rfl⟩
    exact ⟨convertedType, converted, hType, hPairs, rfl⟩
  · intro hGiven
    rcases hGiven with ⟨convertedType, converted, hType, hPairs, rfl⟩
    exact ⟨convertedType, hType, converted, hPairs, rfl⟩

theorem traverse_array_eq_ok_iff {items : List (Element α)} :
    traverse convert (.array items) = .ok result ↔
      ∃ converted, List.Forall₂ (fun item entry => traverse convert item = .ok entry)
        items converted ∧ result = .array converted := by
  simp only [traverse, bind_eq_ok_iff, pure_eq_ok_iff, traverseItems_eq_ok_iff,
    @eq_comm _ result]

end Element

end AnnotationDefaults
