import AnnotationDefaults.Expectation.Spec
import AnnotationDefaults.Proofs.Comparison.Conformance
import AnnotationDefaults.Proofs.Scalar.Tokens

set_option autoImplicit false

/-!
Renderings against conformance. A decoded value conforms to its own rendering, and
whatever conforms to some expectation has a rendering, which corresponds to that
expectation once each expected literal is written as the one token of its value.
-/

namespace AnnotationDefaults

namespace ExpectedElement

variable {pool : ConstantPool} {rendered : ExpectedElement}

theorem leafText_literal_eq_ok_iff {kind : LiteralTag} {index : UInt16} {token : String} :
    leafText pool (.literal kind) index = .ok token ↔
      ∃ value, Scalar.resolve pool kind index = .ok value ∧ value.toToken kind = .ok token := by
  rw [leafText, bind_eq_ok_iff]
  refine exists_congr fun value => and_congr_right fun hValue => ?_
  cases hToken : value.toToken kind with
  | error cause => simp
  | ok written => simp

theorem leafText_conforms {role : LeafRole} {index : UInt16} {text : String}
    (hText : leafText pool role index = .ok text) :
    Comparison.LeafConforms pool role index text := by
  cases role with
  | literal kind =>
      obtain ⟨value, hValue, hToken⟩ := leafText_literal_eq_ok_iff.1 hText
      obtain ⟨wanted, hWanted, hAgree⟩ :=
        Scalar.exists_ofToken (Scalar.resolve_hasKind hValue) hToken
      exact ⟨value, wanted, hValue, hWanted, hAgree⟩
  | _ => exact hText

theorem ofDecoded_conforms {node : DecodedElement}
    (hRendered : ofDecoded pool node = .ok rendered) :
    Comparison.Conforms pool node rendered := by
  unfold ofDecoded at hRendered
  induction node using Element.inductionOn generalizing rendered with
  | literal kind index =>
      obtain ⟨token, hToken, rfl⟩ := Element.traverse_literal_eq_ok_iff.1 hRendered
      exact .literal (leafText_conforms hToken)
  | enumConstant typeIndex constantIndex =>
      obtain ⟨typeName, constantName, hType, hName, rfl⟩ :=
        Element.traverse_enumConstant_eq_ok_iff.1 hRendered
      exact .enumConstant (leafText_conforms hType) (leafText_conforms hName)
  | classLiteral index =>
      obtain ⟨descriptor, hText, rfl⟩ := Element.traverse_classLiteral_eq_ok_iff.1 hRendered
      exact .classLiteral (leafText_conforms hText)
  | annotationValue typeIndex pairs ih =>
      obtain ⟨typeName, converted, hType, hPairs, rfl⟩ :=
        Element.traverse_annotationValue_eq_ok_iff.1 hRendered
      rcases List.forall₂_iff_get.1 hPairs with ⟨hLength, hPlaces⟩
      refine .annotationValue (leafText_conforms hType) (finCongr hLength)
        (fun index => ?_) (fun index => ?_)
      · exact leafText_conforms (hPlaces index index.2 (index.2.trans_eq hLength)).1
      · exact ih _ (List.get_mem pairs index) (hPlaces index index.2 (index.2.trans_eq hLength)).2
  | array items ih =>
      obtain ⟨converted, hItems, rfl⟩ := Element.traverse_array_eq_ok_iff.1 hRendered
      rcases List.forall₂_iff_get.1 hItems with ⟨hLength, hPlaces⟩
      apply Element.Corresponds.array hLength
      intro index hLeft hRight
      exact ih _ (List.get_mem items ⟨index, hLeft⟩) (hPlaces index hLeft hRight)

/-- The second text writes the value that the first one stands for: the one token of
that value for a literal, and the same text for every other leaf. -/
def LeafToken : LeafRole → String → String → Prop
  | .literal kind, token, written => ∃ wanted, Scalar.ofToken kind written = .ok wanted ∧
      wanted.toToken kind = .ok token
  | _, text, written => text = written

theorem leafToken_unique {role : LeafRole} {first second written : String}
    (hFirst : LeafToken role first written) (hSecond : LeafToken role second written) :
    first = second := by
  cases role with
  | literal kind =>
      rcases hFirst with ⟨wanted, hWanted, hToken⟩
      rcases hSecond with ⟨wanted', hWanted', hToken'⟩
      cases hWanted.symm.trans hWanted'
      exact Except.ok.inj (hToken.symm.trans hToken')
  | _ => exact hFirst.trans hSecond.symm

theorem exists_leafText {role : LeafRole} {index : UInt16} {written : String}
    (hConforms : Comparison.LeafConforms pool role index written) :
    ∃ text, leafText pool role index = .ok text ∧ LeafToken role text written := by
  cases role with
  | literal kind =>
      rcases hConforms with ⟨found, wanted, hFound, hWanted, hAgree⟩
      obtain ⟨token, hToken⟩ := Scalar.exists_toToken hWanted hAgree
      refine ⟨token, leafText_literal_eq_ok_iff.2 ⟨found, hFound, hToken⟩, wanted, hWanted, ?_⟩
      rw [← Scalar.toToken_of_agrees kind hAgree]
      exact hToken
  | _ => exact ⟨written, hConforms, rfl⟩

/-- A value that conforms to some expectation has a rendering, and the rendering is
the expectation up to the order of named values and the writing of literals. -/
theorem exists_ofDecoded {node : DecodedElement} {expected : ExpectedElement}
    (hConforms : Comparison.Conforms pool node expected) :
    ∃ rendered, ofDecoded pool node = .ok rendered ∧
      Element.Corresponds LeafToken rendered expected := by
  unfold Comparison.Conforms at hConforms
  unfold ofDecoded
  induction hConforms with
  | literal hValue =>
      obtain ⟨token, hToken, hSame⟩ := exists_leafText hValue
      exact ⟨_, Element.traverse_literal_eq_ok_iff.2 ⟨token, hToken, rfl⟩, .literal hSame⟩
  | enumConstant hType hName =>
      obtain ⟨typeName, hTypeText, hSameType⟩ := exists_leafText hType
      obtain ⟨constantName, hNameText, hSameName⟩ := exists_leafText hName
      exact ⟨_, Element.traverse_enumConstant_eq_ok_iff.2
        ⟨typeName, constantName, hTypeText, hNameText, rfl⟩, .enumConstant hSameType hSameName⟩
  | classLiteral hText =>
      obtain ⟨descriptor, hDescriptor, hSame⟩ := exists_leafText hText
      exact ⟨_, Element.traverse_classLiteral_eq_ok_iff.2 ⟨descriptor, hDescriptor, rfl⟩,
        .classLiteral hSame⟩
  | @annotationValue typeIndex writtenType pairs expected hType partner hNames hValues ih =>
      obtain ⟨typeName, hTypeText, hSameType⟩ := exists_leafText hType
      choose names hNameTexts hSameNames using fun index => exists_leafText (hNames index)
      choose values hRendered hSameValues using ih
      have hLength : (List.ofFn fun index => (names index, values index)).length = pairs.length :=
        List.length_ofFn
      refine ⟨.annotationValue typeName (List.ofFn fun index => (names index, values index)),
        Element.traverse_annotationValue_eq_ok_iff.2 ⟨typeName, _, hTypeText, ?_, rfl⟩,
        .annotationValue hSameType ((finCongr hLength).trans partner)
          (fun index => ?_) (fun index => ?_)⟩
      · refine List.forall₂_iff_get.2 ⟨hLength.symm, fun index hLeft hRight => ?_⟩
        rw [List.get_ofFn]
        exact ⟨hNameTexts ⟨index, hLeft⟩, hRendered ⟨index, hLeft⟩⟩
      · rw [List.get_ofFn]
        exact hSameNames (finCongr hLength index)
      · rw [List.get_ofFn]
        exact hSameValues (finCongr hLength index)
  | @array items expected hLength hItems ih =>
      have hFound (index : Fin items.length) := ih index index.2 (index.2.trans_eq hLength)
      choose values hRendered hSameValues using hFound
      have hCount : (List.ofFn values).length = items.length := List.length_ofFn
      refine ⟨.array (List.ofFn values), Element.traverse_array_eq_ok_iff.2 ⟨_, ?_, rfl⟩,
        .array (hCount.trans hLength) fun index hLeft hRight => ?_⟩
      · refine List.forall₂_iff_get.2 ⟨hCount.symm, fun index hLeft hRight => ?_⟩
        rw [List.get_ofFn]
        exact hRendered ⟨index, hLeft⟩
      · rw [List.get_ofFn]
        exact hSameValues ⟨index, hLeft.trans_eq hCount⟩

end ExpectedElement

end AnnotationDefaults
