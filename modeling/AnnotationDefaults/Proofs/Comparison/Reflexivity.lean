import AnnotationDefaults.Proofs.Expectation.Rendering

set_option autoImplicit false

/-!
Comparison of a decoded value with its own rendering. A comparison looks every
expected name up and finds the first value of that name, so a value that repeats a
name is not always accepted by its rendering: it is, exactly if the values rendered
under one name are interchangeable. Without a repeated name it always is.
-/

namespace AnnotationDefaults

namespace ExpectedElement

/-- The two expectations ask for the same, apart from which of several values of one
name stands where: leaves have equal texts, arrays are compared item by item, and
annotations have as many values, the same names, and interchangeable values wherever
two names are equal. -/
inductive Interchangeable : ExpectedElement → ExpectedElement → Prop
  | literal {kind : LiteralTag} {token : String} :
      Interchangeable (.literal kind token) (.literal kind token)
  | enumConstant {typeName constantName : String} :
      Interchangeable (.enumConstant typeName constantName) (.enumConstant typeName constantName)
  | classLiteral {descriptor : String} :
      Interchangeable (.classLiteral descriptor) (.classLiteral descriptor)
  | annotationValue {typeName : String} {left right : List (String × ExpectedElement)}
      (hLength : left.length = right.length)
      (hLeft : ∀ pair ∈ left, pair.1 ∈ right.map (·.1))
      (hRight : ∀ pair ∈ right, pair.1 ∈ left.map (·.1))
      (hValues : ∀ pair ∈ left, ∀ other ∈ right, pair.1 = other.1 →
        Interchangeable pair.2 other.2) :
      Interchangeable (.annotationValue typeName left) (.annotationValue typeName right)
  | array {left right : List ExpectedElement} (hLength : left.length = right.length)
      (hItems : ∀ index (hLeft : index < left.length) (hRight : index < right.length),
        Interchangeable (left.get ⟨index, hLeft⟩) (right.get ⟨index, hRight⟩)) :
      Interchangeable (.array left) (.array right)

/-- In every annotation of the expectation, at any depth, any two values under one
name are interchangeable. -/
inductive RepeatsAgree : ExpectedElement → Prop
  | literal {kind : LiteralTag} {token : String} : RepeatsAgree (.literal kind token)
  | enumConstant {typeName constantName : String} :
      RepeatsAgree (.enumConstant typeName constantName)
  | classLiteral {descriptor : String} : RepeatsAgree (.classLiteral descriptor)
  | annotationValue {typeName : String} {pairs : List (String × ExpectedElement)}
      (hRepeats : pairs.Pairwise fun first second => first.1 = second.1 →
        Interchangeable first.2 second.2)
      (hValues : ∀ pair ∈ pairs, RepeatsAgree pair.2) :
      RepeatsAgree (.annotationValue typeName pairs)
  | array {items : List ExpectedElement} (hItems : ∀ item ∈ items, RepeatsAgree item) :
      RepeatsAgree (.array items)

namespace Interchangeable

theorem symm {left right : ExpectedElement} (hSame : Interchangeable left right) :
    Interchangeable right left := by
  induction hSame with
  | literal => exact .literal
  | enumConstant => exact .enumConstant
  | classLiteral => exact .classLiteral
  | annotationValue hLength hLeft hRight hValues ih =>
      apply Interchangeable.annotationValue hLength.symm hRight hLeft
      intro pair hPair other hOther hName
      exact ih other hOther pair hPair hName.symm
  | array hLength hItems ih =>
      apply Interchangeable.array hLength.symm
      intro index hLeft hRight
      exact ih index hRight hLeft

end Interchangeable

theorem repeatsAgree_iff {expected : ExpectedElement} :
    RepeatsAgree expected ↔ Interchangeable expected expected := by
  induction expected using Element.inductionOn with
  | literal kind token => exact iff_of_true .literal .literal
  | enumConstant typeName constantName => exact iff_of_true .enumConstant .enumConstant
  | classLiteral descriptor => exact iff_of_true .classLiteral .classLiteral
  | annotationValue typeName pairs ih =>
      constructor
      · rintro (_ | _ | _ | ⟨hRepeats, hValues⟩ | _)
        have hNames : ∀ pair ∈ pairs, pair.1 ∈ pairs.map (·.1) :=
          fun pair hPair => List.mem_map_of_mem hPair
        have hSelf : ∀ pair ∈ pairs, pair.1 = pair.1 → Interchangeable pair.2 pair.2 :=
          fun pair hPair _ => (ih pair hPair).1 (hValues pair hPair)
        have hFlip := hRepeats.imp fun hSame hName => (hSame (Eq.symm hName)).symm
        apply Interchangeable.annotationValue rfl hNames hNames
        intro pair hPair other hOther
        exact hRepeats.forall_of_forall_of_flip hSelf hFlip hPair hOther
      · rintro (_ | _ | _ | ⟨-, -, -, hValues⟩ | _)
        refine .annotationValue ?_ fun pair hPair => ?_
        · exact List.pairwise_of_forall_mem_list hValues
        · exact (ih pair hPair).2 (hValues pair hPair pair hPair rfl)
  | array items ih =>
      constructor
      · rintro (_ | _ | _ | _ | hItems)
        apply Interchangeable.array rfl
        intro index hLeft hRight
        exact (ih _ (List.get_mem _ _)).1 (hItems _ (List.get_mem items ⟨index, hLeft⟩))
      · rintro (_ | _ | _ | _ | ⟨-, hItems⟩)
        apply RepeatsAgree.array
        intro item hMem
        rcases List.get_of_mem hMem with ⟨index, rfl⟩
        exact (ih _ (List.get_mem _ _)).2 (hItems index index.2 index.2)

end ExpectedElement

namespace Comparison

open ExpectedElement

variable {pool : ConstantPool}

private theorem exists_resolveNames {pairs : List (UInt16 × DecodedElement)}
    {rendered : List (String × ExpectedElement)}
    (hRendered : List.Forall₂ (fun pair entry => leafText pool .pairName pair.1 = .ok entry.1 ∧
      Element.traverse (leafText pool) pair.2 = .ok entry.2) pairs rendered) :
    ∃ named, resolveNames pool pairs = .ok named ∧
      List.Forall₂ (Paired fun value other => ofDecoded pool value = .ok other) named rendered :=
  exists_resolveNames_of_forall₂ hRendered

theorem accepts_of_interchangeable {node : DecodedElement} {rendered expected : ExpectedElement}
    (hRendered : ofDecoded pool node = .ok rendered) (hSame : Interchangeable rendered expected) :
    Accepts pool node expected := by
  unfold ofDecoded at hRendered
  induction node using Element.inductionOn generalizing rendered expected with
  | literal kind index =>
      obtain ⟨token, hToken, rfl⟩ := Element.traverse_literal_eq_ok_iff.1 hRendered
      cases hSame
      exact accepts_literal_iff.2 ⟨index, rfl, leafText_conforms hToken⟩
  | enumConstant typeIndex constantIndex =>
      obtain ⟨typeName, constantName, hType, hName, rfl⟩ :=
        Element.traverse_enumConstant_eq_ok_iff.1 hRendered
      cases hSame
      exact accepts_enumConstant_iff.2 ⟨typeIndex, constantIndex, rfl, hType, hName⟩
  | classLiteral index =>
      obtain ⟨descriptor, hText, rfl⟩ := Element.traverse_classLiteral_eq_ok_iff.1 hRendered
      cases hSame
      exact accepts_classLiteral_iff.2 ⟨index, rfl, hText⟩
  | annotationValue typeIndex pairs ih =>
      obtain ⟨typeName, converted, hType, hPairs, rfl⟩ :=
        Element.traverse_annotationValue_eq_ok_iff.1 hRendered
      obtain ⟨named, hNamed, hEntries⟩ := exists_resolveNames hPairs
      obtain _ | _ | _ | ⟨hLength, hLeft, hRight, hValues⟩ | _ := hSame
      refine accepts_annotationValue_iff.2
        ⟨typeIndex, pairs, named, rfl, hType, hNamed, fun other hOther => ?_,
          fun entry hEntry => ?_,
          hEntries.length_eq.trans hLength⟩
      · -- the first value of the name need not be the one that `other` was rendered from
        rcases List.mem_map.1 (hRight other hOther) with ⟨written, hWritten, hName⟩
        obtain ⟨entry, hEntry, hSameName, -⟩ := exists_left_of_mem hEntries hWritten
        cases hFirst : firstNamed? other.1 named with
        | none =>
            have hAbsent := firstNamed?_isNone_iff.1 (Option.isNone_iff_eq_none.2 hFirst)
            refine absurd (List.mem_map_of_mem (f := (·.1)) hEntry) ?_
            rw [hSameName, hName]
            exact hAbsent
        | some value =>
            have hMem := firstNamed?_mem hFirst
            obtain ⟨source, hSource, -, hValue⟩ :=
              exists_left_of_mem (resolveNames_eq_ok_iff.1 hNamed) hMem
            obtain ⟨text, hText, hTextName, hElement⟩ := exists_right_of_mem hEntries hMem
            subst hValue
            have hElementSame := hValues text hText other hOther hTextName.symm
            exact ⟨source.2, rfl, ih source hSource hElement hElementSame⟩
      · obtain ⟨text, hText, hTextName, -⟩ := exists_right_of_mem hEntries hEntry
        rw [hTextName]
        exact hLeft text hText
  | array items ih =>
      obtain ⟨converted, hItems, rfl⟩ := Element.traverse_array_eq_ok_iff.1 hRendered
      rcases List.forall₂_iff_get.1 hItems with ⟨hCount, hPlaces⟩
      obtain _ | _ | _ | _ | ⟨hLength, hSameItems⟩ := hSame
      refine accepts_array_iff.2 ⟨items, rfl, hCount.trans hLength, fun index hItem hExpected => ?_⟩
      have hMiddle := hItem.trans_eq hCount
      exact ih _ (List.get_mem _ _) (hPlaces index hItem hMiddle)
        (hSameItems index hMiddle hExpected)

/-! ### Expectations written by a rendering -/

/-- Every literal of the expectation is written as the one token of its value. -/
inductive Canonical : ExpectedElement → Prop
  | literal {kind : LiteralTag} {token : String} {value : Scalar}
      (hValue : Scalar.ofToken kind token = .ok value) (hToken : value.toToken kind = .ok token) :
      Canonical (.literal kind token)
  | enumConstant {typeName constantName : String} :
      Canonical (.enumConstant typeName constantName)
  | classLiteral {descriptor : String} : Canonical (.classLiteral descriptor)
  | annotationValue {typeName : String} {pairs : List (String × ExpectedElement)}
      (hValues : ∀ pair ∈ pairs, Canonical pair.2) : Canonical (.annotationValue typeName pairs)
  | array {items : List ExpectedElement} (hItems : ∀ item ∈ items, Canonical item) :
      Canonical (.array items)

theorem canonical_of_ofDecoded {node : DecodedElement} {rendered : ExpectedElement}
    (hRendered : ofDecoded pool node = .ok rendered) : Canonical rendered := by
  unfold ofDecoded at hRendered
  induction node using Element.inductionOn generalizing rendered with
  | literal kind index =>
      obtain ⟨token, hText, rfl⟩ := Element.traverse_literal_eq_ok_iff.1 hRendered
      obtain ⟨stored, hStored, hToken⟩ := leafText_literal_eq_ok_iff.1 hText
      obtain ⟨value, hValue, hAgree⟩ :=
        Scalar.exists_ofToken (Scalar.resolve_hasKind hStored) hToken
      rw [Scalar.toToken_of_agrees kind hAgree] at hToken
      exact .literal hValue hToken
  | enumConstant typeIndex constantIndex =>
      obtain ⟨typeName, constantName, -, -, rfl⟩ :=
        Element.traverse_enumConstant_eq_ok_iff.1 hRendered
      exact .enumConstant
  | classLiteral index =>
      obtain ⟨descriptor, -, rfl⟩ := Element.traverse_classLiteral_eq_ok_iff.1 hRendered
      exact .classLiteral
  | annotationValue typeIndex pairs ih =>
      obtain ⟨typeName, converted, -, hPairs, rfl⟩ :=
        Element.traverse_annotationValue_eq_ok_iff.1 hRendered
      apply Canonical.annotationValue
      intro entry hEntry
      obtain ⟨pair, hPair, -, hValue⟩ := exists_left_of_mem hPairs hEntry
      exact ih pair hPair hValue
  | array items ih =>
      obtain ⟨converted, hItems, rfl⟩ := Element.traverse_array_eq_ok_iff.1 hRendered
      apply Canonical.array
      intro entry hEntry
      obtain ⟨item, hItem, hValue⟩ := exists_left_of_mem hItems hEntry
      exact ih item hItem hValue

theorem interchangeable_of_accepts {node : DecodedElement} {left right : ExpectedElement}
    (hLeft : Canonical left) (hRight : Canonical right) (hAccepts : Accepts pool node left)
    (hOther : Accepts pool node right) : Interchangeable left right := by
  have hTag := hAccepts.tag_eq.symm.trans hOther.tag_eq
  induction left using Element.inductionOn generalizing node right with
  | literal kind token =>
      obtain ⟨index, rfl, found, wanted, hFound, hWanted, hAgree⟩ := accepts_literal_iff.1 hAccepts
      cases right with
      | literal kind' token' =>
          obtain ⟨index', hNode, found', wanted', hFound', hWanted', hAgree'⟩ :=
            accepts_literal_iff.1 hOther
          cases hNode
          cases hFound.symm.trans hFound'
          obtain ⟨hValue, hToken⟩ | _ | _ | _ | _ := hLeft
          obtain ⟨hValue', hToken'⟩ | _ | _ | _ | _ := hRight
          cases hWanted.symm.trans hValue
          cases hWanted'.symm.trans hValue'
          rw [← Scalar.toToken_of_agrees kind hAgree] at hToken
          rw [← Scalar.toToken_of_agrees kind hAgree'] at hToken'
          cases hToken.symm.trans hToken'
          exact .literal
      | _ => cases hTag
  | enumConstant typeName constantName =>
      obtain ⟨typeIndex, constantIndex, rfl, hType, hName⟩ := accepts_enumConstant_iff.1 hAccepts
      cases right with
      | enumConstant typeName' constantName' =>
          obtain ⟨_, _, hNode, hType', hName'⟩ := accepts_enumConstant_iff.1 hOther
          cases hNode
          cases hType.symm.trans hType'
          cases hName.symm.trans hName'
          exact .enumConstant
      | _ => cases hTag
  | classLiteral descriptor =>
      obtain ⟨index, rfl, hText⟩ := accepts_classLiteral_iff.1 hAccepts
      cases right with
      | classLiteral descriptor' =>
          obtain ⟨_, hNode, hText'⟩ := accepts_classLiteral_iff.1 hOther
          cases hNode
          cases hText.symm.trans hText'
          exact .classLiteral
      | _ => cases hTag
  | annotationValue typeName pairs ih =>
      obtain ⟨typeIndex, source, named, rfl, hType, hNamed, hPairs, hNames, hCount⟩ :=
        accepts_annotationValue_iff.1 hAccepts
      cases right with
      | annotationValue typeName' others =>
          obtain ⟨_, _, named', hNode, hType', hNamed', hOthers, hNames', hCount'⟩ :=
            accepts_annotationValue_iff.1 hOther
          cases hNode
          cases hType.symm.trans hType'
          cases hNamed.symm.trans hNamed'
          obtain _ | _ | _ | ⟨hValues⟩ | _ := hLeft
          obtain _ | _ | _ | ⟨hOtherValues⟩ | _ := hRight
          refine .annotationValue (hCount.symm.trans hCount') (fun pair hPair => ?_)
            (fun other hMem => ?_) (fun pair hPair other hMem hName => ?_)
          · obtain ⟨value, hValue, -⟩ := hPairs pair hPair
            exact hNames' _ (firstNamed?_mem hValue)
          · obtain ⟨value, hValue, -⟩ := hOthers other hMem
            exact hNames _ (firstNamed?_mem hValue)
          · obtain ⟨value, hValue, hPairAccepts⟩ := hPairs pair hPair
            obtain ⟨value', hValue', hOtherAccepts⟩ := hOthers other hMem
            rw [← hName, hValue] at hValue'
            cases hValue'
            exact ih pair hPair (hValues pair hPair) (hOtherValues other hMem) hPairAccepts
              hOtherAccepts (hPairAccepts.tag_eq.symm.trans hOtherAccepts.tag_eq)
      | _ => cases hTag
  | array items ih =>
      obtain ⟨source, rfl, hLength, hItems⟩ := accepts_array_iff.1 hAccepts
      cases right with
      | array others =>
          obtain ⟨_, hNode, hLength', hOthers⟩ := accepts_array_iff.1 hOther
          cases hNode
          obtain _ | _ | _ | _ | hValues := hLeft
          obtain _ | _ | _ | _ | hOtherValues := hRight
          apply Interchangeable.array (hLength.symm.trans hLength')
          intro index hItem hMem
          have hSource := hItem.trans_eq hLength.symm
          have hItemAccepts := hItems index hSource hItem
          have hOtherAccepts := hOthers index hSource hMem
          exact ih _ (List.get_mem _ _) (hValues _ (List.get_mem _ _))
            (hOtherValues _ (List.get_mem _ _)) hItemAccepts hOtherAccepts
            (hItemAccepts.tag_eq.symm.trans hOtherAccepts.tag_eq)
      | _ => cases hTag

/-! ### Comparison with the own rendering -/

/-- A value that renders is accepted by its rendering exactly if the values rendered
under one name are interchangeable; in particular if no name is repeated. -/
theorem allMatch_ofDecoded_iff_repeatsAgree (pool : ConstantPool) (node : DecodedElement)
    (rendered : ExpectedElement) (hRendered : ofDecoded pool node = .ok rendered) :
    ((∀ outcome ∈ outcomes pool node rendered, outcome.isMatch = true) ↔ RepeatsAgree rendered) ∧
      (node.DistinctNames pool →
        ∀ outcome ∈ outcomes pool node rendered, outcome.isMatch = true) := by
  constructor
  · constructor
    · intro hMatch
      have hAccepts : Accepts pool node rendered := hMatch
      have hCanonical := canonical_of_ofDecoded hRendered
      exact repeatsAgree_iff.2
        (interchangeable_of_accepts hCanonical hCanonical hAccepts hAccepts)
    · intro hRepeats
      exact accepts_of_interchangeable hRendered (repeatsAgree_iff.1 hRepeats)
  · intro hDistinct
    exact (ofDecoded_conforms hRendered).accepts hDistinct

/-- A name that is repeated with one value. -/
theorem repeatsAgree_equal_values :
    let node : DecodedElement := .annotationValue 1 [(2, .literal .int 4), (2, .literal .int 4)]
    let rendered : ExpectedElement :=
      .annotationValue "LA;" [("a", .literal .int "1"), ("a", .literal .int "1")]
    ofDecoded samplePool node = .ok rendered ∧ RepeatsAgree rendered := by
  intro node rendered
  have hRendered : ofDecoded samplePool node = .ok rendered := rfl
  exact ⟨hRendered,
    (allMatch_ofDecoded_iff_repeatsAgree _ _ _ hRendered).1.1 (by decide)⟩

/-- A name that is repeated with two values: the second one is compared with the first
value of the name and is reported. -/
theorem mismatch_repeated_name :
    let node : DecodedElement := .annotationValue 1 [(2, .literal .int 4), (2, .literal .int 5)]
    let rendered : ExpectedElement :=
      .annotationValue "LA;" [("a", .literal .int "1"), ("a", .literal .int "2")]
    ofDecoded samplePool node = .ok rendered ∧
      ¬ ∀ outcome ∈ outcomes samplePool node rendered, outcome.isMatch = true := by
  intro node rendered
  exact ⟨rfl, by decide⟩

end Comparison

end AnnotationDefaults
