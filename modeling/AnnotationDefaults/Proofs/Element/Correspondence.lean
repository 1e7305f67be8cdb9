import AnnotationDefaults.Element.Basic
import Mathlib.Data.Fintype.EquivFin
import Mathlib.Data.List.FinRange
import Mathlib.Data.List.Nodup

set_option autoImplicit false

/-!
Correspondence of element values. Two values correspond if they have one shape and
their leaves are related role by role; the named values of an annotation are paired
off by a bijection, so their order does not count. The module also holds the
induction over values that every later proof uses, and the condition that no
annotation names two of its values alike.
-/

namespace AnnotationDefaults

/-- Entries paired off one to one can be put into the order of their partners. -/
theorem exists_arranged {α β : Type} {related : α → β → Prop} {left : List α} {right : List β}
    (partner : Fin left.length ≃ Fin right.length)
    (hRelated : ∀ index, related (left.get index) (right.get (partner index))) :
    ∃ arranged, arranged.Perm left ∧ List.Forall₂ related arranged right := by
  have hLength : left.length = right.length := Fin.equiv_iff_eq.1 ⟨partner⟩
  refine ⟨List.ofFn fun index => left.get (partner.symm index), ?_, ?_⟩
  · have hArranged : (List.ofFn fun index => left.get (partner.symm index)) =
        List.ofFn (left.get ∘ (finCongr hLength).trans partner.symm) := by
      rw [List.ofFn_congr hLength.symm]
      rfl
    rw [hArranged]
    have hPerm := Equiv.Perm.ofFn_comp_perm ((finCongr hLength).trans partner.symm) left.get
    rw [List.ofFn_get] at hPerm
    exact hPerm
  · apply List.forall₂_iff_get.2
    constructor
    · exact List.length_ofFn
    · intro index hArranged hRight
      have hPair := hRelated (partner.symm ⟨index, hRight⟩)
      rw [Equiv.apply_symm_apply] at hPair
      rw [List.get_ofFn]
      exact hPair

def Paired {ν α β : Type} (related : α → β → Prop) (entry : ν × α) (partner : ν × β) : Prop :=
  entry.1 = partner.1 ∧ related entry.2 partner.2

theorem names_eq_of_paired {ν α β : Type} {related : α → β → Prop} {left : List (ν × α)}
    {right : List (ν × β)} (hPaired : List.Forall₂ (Paired related) left right) :
    left.map (·.1) = right.map (·.1) := by
  induction hPaired with
  | nil => rfl
  | cons hEntry hRest ih => rw [List.map_cons, List.map_cons, hEntry.1, ih]

theorem names_perm_of_arranged {ν α β : Type} {related : α → β → Prop}
    {entries arranged : List (ν × α)} {right : List (ν × β)} (hPerm : arranged.Perm entries)
    (hPaired : List.Forall₂ (Paired related) arranged right) :
    (entries.map (·.1)).Perm (right.map (·.1)) := by
  rw [← names_eq_of_paired hPaired]
  exact (hPerm.map _).symm

theorem find?_name_of_mem {α : Type} {entries : List (String × α)} {entry : String × α}
    (hNodup : (entries.map (·.1)).Nodup) (hMem : entry ∈ entries) :
    (entries.find? fun other => other.1 == entry.1) = some entry := by
  cases hFound : entries.find? fun other => other.1 == entry.1 with
  | none => exact absurd (beq_self_eq_true entry.1) (List.find?_eq_none.1 hFound entry hMem)
  | some other =>
      have hName := List.find?_some hFound
      rw [beq_iff_eq] at hName
      exact congrArg some
        (List.inj_on_of_nodup_map hNodup (List.mem_of_find?_eq_some hFound) hMem hName)

namespace Element

variable {α β γ : Type}

/-- Induction over values: the children of a composite value are reached by
membership, so no statement about lists of children is needed. -/
@[elab_as_elim]
theorem inductionOn {motive : Element α → Prop}
    (literal : ∀ kind value, motive (.literal kind value))
    (enumConstant : ∀ typeName constantName, motive (.enumConstant typeName constantName))
    (classLiteral : ∀ descriptor, motive (.classLiteral descriptor))
    (annotationValue : ∀ typeName pairs, (∀ pair ∈ pairs, motive pair.2) →
      motive (.annotationValue typeName pairs))
    (array : ∀ items, (∀ item ∈ items, motive item) → motive (.array items))
    (element : Element α) : motive element := by
  match element with
  | .literal kind value => exact literal kind value
  | .enumConstant typeName constantName => exact enumConstant typeName constantName
  | .classLiteral descriptor => exact classLiteral descriptor
  | .annotationValue typeName pairs =>
      apply annotationValue typeName pairs
      intro pair hMem
      exact inductionOn literal enumConstant classLiteral annotationValue array pair.2
  | .array items =>
      apply array items
      intro item hMem
      exact inductionOn literal enumConstant classLiteral annotationValue array item
termination_by sizeOf element
decreasing_by
  · have hLess := List.sizeOf_lt_of_mem hMem
    rcases pair with ⟨name, value⟩
    simp only [Prod.mk.sizeOf_spec, Element.annotationValue.sizeOf_spec] at hLess ⊢
    omega
  · have hLess := List.sizeOf_lt_of_mem hMem
    simp only [Element.array.sizeOf_spec]
    omega

/-- No annotation of the value, at any depth, names two of its values alike. -/
inductive NamesApart (alike : α → α → Prop) : Element α → Prop
  | literal {kind : LiteralTag} {value : α} : NamesApart alike (.literal kind value)
  | enumConstant {typeName constantName : α} :
      NamesApart alike (.enumConstant typeName constantName)
  | classLiteral {descriptor : α} : NamesApart alike (.classLiteral descriptor)
  | annotationValue {typeName : α} {pairs : List (α × Element α)}
      (hNames : pairs.Pairwise fun first second => ¬ alike first.1 second.1)
      (hValues : ∀ pair ∈ pairs, NamesApart alike pair.2) :
      NamesApart alike (.annotationValue typeName pairs)
  | array {items : List (Element α)} (hItems : ∀ item ∈ items, NamesApart alike item) :
      NamesApart alike (.array items)

inductive NamesAll (holds : α → Prop) : Element α → Prop
  | literal {kind : LiteralTag} {value : α} : NamesAll holds (.literal kind value)
  | enumConstant {typeName constantName : α} :
      NamesAll holds (.enumConstant typeName constantName)
  | classLiteral {descriptor : α} : NamesAll holds (.classLiteral descriptor)
  | annotationValue {typeName : α} {pairs : List (α × Element α)}
      (hNames : ∀ pair ∈ pairs, holds pair.1) (hValues : ∀ pair ∈ pairs, NamesAll holds pair.2) :
      NamesAll holds (.annotationValue typeName pairs)
  | array {items : List (Element α)} (hItems : ∀ item ∈ items, NamesAll holds item) :
      NamesAll holds (.array items)

/-- Two values of one shape whose leaves are related. The named values of two
annotations are paired off one to one; array items are compared in order. -/
inductive Corresponds (related : LeafRole → α → β → Prop) : Element α → Element β → Prop
  | literal {kind : LiteralTag} {left : α} {right : β}
      (hValue : related (.literal kind) left right) :
      Corresponds related (.literal kind left) (.literal kind right)
  | enumConstant {leftType leftName : α} {rightType rightName : β}
      (hType : related .enumType leftType rightType)
      (hName : related .enumConstant leftName rightName) :
      Corresponds related (.enumConstant leftType leftName) (.enumConstant rightType rightName)
  | classLiteral {left : α} {right : β} (hDescriptor : related .classDescriptor left right) :
      Corresponds related (.classLiteral left) (.classLiteral right)
  | annotationValue {leftType : α} {rightType : β} {left : List (α × Element α)}
      {right : List (β × Element β)} (hType : related .annotationType leftType rightType)
      (partner : Fin left.length ≃ Fin right.length)
      (hNames : ∀ index, related .pairName (left.get index).1 (right.get (partner index)).1)
      (hValues : ∀ index, Corresponds related (left.get index).2 (right.get (partner index)).2) :
      Corresponds related (.annotationValue leftType left) (.annotationValue rightType right)
  | array {left : List (Element α)} {right : List (Element β)}
      (hLength : left.length = right.length)
      (hItems : ∀ index (hLeft : index < left.length) (hRight : index < right.length),
        Corresponds related (left.get ⟨index, hLeft⟩) (right.get ⟨index, hRight⟩)) :
      Corresponds related (.array left) (.array right)

namespace Corresponds

theorem tag_eq {related : LeafRole → α → β → Prop} {left : Element α} {right : Element β}
    (hSame : Corresponds related left right) : left.tag = right.tag := by
  cases hSame with
  | literal hValue => rfl
  | enumConstant hType hName => rfl
  | classLiteral hDescriptor => rfl
  | annotationValue hType partner hNames hValues => rfl
  | array hLength hItems => rfl

theorem joined {left : Element α} {right : Element β} {target : Element γ}
    {leftRelated : LeafRole → α → γ → Prop} {rightRelated : LeafRole → β → γ → Prop}
    {related : LeafRole → α → β → Prop}
    (hLeaves : ∀ role first second third, leftRelated role first third →
      rightRelated role second third → related role first second)
    (hLeft : Corresponds leftRelated left target)
    (hRight : Corresponds rightRelated right target) : Corresponds related left right := by
  induction hLeft generalizing right with
  | literal hValue =>
      cases hRight with
      | literal hOther => exact .literal (hLeaves _ _ _ _ hValue hOther)
  | enumConstant hType hName =>
      cases hRight with
      | enumConstant hOtherType hOtherName =>
          exact .enumConstant (hLeaves _ _ _ _ hType hOtherType)
            (hLeaves _ _ _ _ hName hOtherName)
  | classLiteral hDescriptor =>
      cases hRight with
      | classLiteral hOther => exact .classLiteral (hLeaves _ _ _ _ hDescriptor hOther)
  | annotationValue hType partner hNames hValues ih =>
      cases hRight with
      | annotationValue hOtherType otherPartner hOtherNames hOtherValues =>
          refine .annotationValue (hLeaves _ _ _ _ hType hOtherType)
            (partner.trans otherPartner.symm) (fun index => ?_) (fun index => ?_)
          · have hOther := hOtherNames (otherPartner.symm (partner index))
            rw [Equiv.apply_symm_apply] at hOther
            exact hLeaves _ _ _ _ (hNames index) hOther
          · have hOther := hOtherValues (otherPartner.symm (partner index))
            rw [Equiv.apply_symm_apply] at hOther
            exact ih index hOther
  | array hLength hItems ih =>
      cases hRight with
      | array hOtherLength hOtherItems =>
          apply Corresponds.array (hLength.trans hOtherLength.symm)
          intro index hLeft hRight
          have hTarget := hLeft.trans_eq hLength
          exact ih index hLeft hTarget (hOtherItems index hRight hTarget)

end Corresponds

end Element

end AnnotationDefaults
