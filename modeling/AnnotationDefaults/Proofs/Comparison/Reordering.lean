import AnnotationDefaults.Proofs.Comparison.Determination
import AnnotationDefaults.Proofs.Comparison.Outcomes

set_option autoImplicit false

/-!
Comparison and the order of named values. Values of annotations are looked up by name, so
their order decides nothing but the order of the outcomes, on both sides and at every depth,
and whether the comparison fails or not. The decoded value is one whose names all resolve and
do not repeat inside an annotation; the expectation may repeat names.
-/

namespace AnnotationDefaults

namespace DecodedElement

/-- Equal up to the order of the named values inside annotations. -/
def Reordered : DecodedElement → DecodedElement → Prop := Element.Corresponds fun _ => Eq

/-- In every annotation, at any depth, all names resolve and no two of them to one text. -/
structure WellNamed (pool : ConstantPool) (node : DecodedElement) : Prop where
  resolve : Element.NamesAll (fun index => ∃ name, pool.utf8 index = .ok name) node
  distinct : node.DistinctNames pool

end DecodedElement

namespace Comparison

open DecodedElement

variable {pool : ConstantPool} {path : String} {first second : List (String × DecodedElement)}

/-! ### Names of both sides -/

theorem exists_named_of_wellNamed {typeIndex : UInt16} {pairs : List (UInt16 × DecodedElement)}
    (hNode : WellNamed pool (.annotationValue typeIndex pairs)) :
    ∃ named, resolveNames pool pairs = .ok named ∧ (named.map (·.1)).Nodup ∧
      ∀ entry ∈ named, WellNamed pool entry.2 := by
  obtain ⟨hResolve, hDistinct⟩ := hNode
  cases hResolve with
  | annotationValue hNames hValues =>
      cases hDistinct with
      | annotationValue hApart hApartValues =>
          obtain ⟨named, hNamed⟩ := exists_resolveNames_of_names hNames
          refine ⟨named, hNamed, (namesApart_iff_nodup hNamed).1 hApart, ?_⟩
          intro entry hEntry
          obtain ⟨pair, hPair, -, hSame⟩ :=
            exists_left_of_mem (resolveNames_eq_ok_iff.1 hNamed) hEntry
          rw [← hSame]
          exact ⟨hValues pair hPair, hApartValues pair hPair⟩

theorem wellNamed_of_mem_items {items : List DecodedElement}
    (hNode : WellNamed pool (.array items)) : ∀ item ∈ items, WellNamed pool item := by
  obtain ⟨hResolve, hDistinct⟩ := hNode
  cases hResolve with
  | array hItems =>
      cases hDistinct with
      | array hApartItems =>
          intro item hItem
          exact ⟨hItems item hItem, hApartItems item hItem⟩

/-- The same names, and under each name the same value first, up to the order of named values
further inside. -/
structure NamedAlike (first second : List (String × DecodedElement)) : Prop where
  names : (first.map (·.1)).Perm (second.map (·.1))
  values : ∀ name, Option.Rel Reordered (firstNamed? name first) (firstNamed? name second)

private theorem namedAlike_of_arranged {arranged : List (String × DecodedElement)}
    (hNodup : (first.map (·.1)).Nodup) (hPerm : arranged.Perm second)
    (hSame : List.Forall₂ (Paired fun reordered value => Reordered value reordered) arranged
      first) : NamedAlike first second := by
  have hNames := (names_perm_of_arranged hPerm hSame).symm
  constructor
  · exact hNames
  · intro name
    cases hFirst : firstNamed? name first with
    | none =>
        have hAbsent := firstNamed?_isNone_iff.1 (Option.isNone_iff_eq_none.2 hFirst)
        rw [hNames.mem_iff, ← firstNamed?_isNone_iff, Option.isNone_iff_eq_none] at hAbsent
        rw [hAbsent]
        exact .none
    | some value =>
        obtain ⟨reordered, hSecond, hValue⟩ := exists_firstNamed?_of_arranged
          (hNames.nodup_iff.1 hNodup) hPerm hSame (name, value) (firstNamed?_mem hFirst)
        rw [hSecond]
        exact .some hValue

theorem exists_namedAlike {pairs others : List (UInt16 × DecodedElement)}
    (hNamed : resolveNames pool pairs = .ok first) (hNodup : (first.map (·.1)).Nodup)
    (partner : Fin pairs.length ≃ Fin others.length)
    (hNames : ∀ index, (pairs.get index).1 = (others.get (partner index)).1)
    (hValues : ∀ index, Reordered (pairs.get index).2 (others.get (partner index)).2) :
    ∃ second, resolveNames pool others = .ok second ∧ NamedAlike first second := by
  obtain ⟨hLength, hResolved⟩ := List.forall₂_iff_get.1 (resolveNames_eq_ok_iff.1 hNamed)
  have hEntry (index : Fin others.length) :
      pool.utf8 (others.get index).1 =
          .ok (first.get ((partner.symm.trans (finCongr hLength)) index)).1 ∧
        Reordered (first.get ((partner.symm.trans (finCongr hLength)) index)).2
          (others.get index).2 := by
    have hPair := (partner.symm index).2
    obtain ⟨hText, hFirst⟩ := hResolved (partner.symm index) hPair (hPair.trans_eq hLength)
    have hName := hNames (partner.symm index)
    have hValue := hValues (partner.symm index)
    rw [Equiv.apply_symm_apply] at hName hValue
    constructor
    · rw [← hName]
      exact hText
    · have hSame : (first.get ((partner.symm.trans (finCongr hLength)) index)).2 =
          (pairs.get (partner.symm index)).2 := hFirst.symm
      rw [hSame]
      exact hValue
  have hSecond : ∃ second arranged, resolveNames pool others = .ok second ∧
      arranged.Perm second ∧
      List.Forall₂ (Paired fun reordered value => Reordered value reordered) arranged first :=
    exists_named_of_partner (partner.symm.trans (finCongr hLength))
      (fun index => (hEntry index).1) (fun index => (hEntry index).2)
  obtain ⟨second, arranged, hResolvedSecond, hPerm, hSame⟩ := hSecond
  exact ⟨second, hResolvedSecond, namedAlike_of_arranged hNodup hPerm hSame⟩

/-! ### Outcomes that depend on the names alone -/

section Names

variable {names others : List String}

theorem unexpectedOutcomes_perm (hFirst : (first.map (·.1)).Perm (second.map (·.1)))
    (hNames : names.Perm others) :
    (unexpectedOutcomes path first names).Perm (unexpectedOutcomes path second others) := by
  have hContains : (fun name => !names.contains name) = fun name => !others.contains name := by
    funext name
    rw [Bool.eq_iff_iff]
    simp only [Bool.not_eq_true', ← Bool.not_eq_true, List.contains_iff_mem, hNames.mem_iff]
  rw [unexpectedOutcomes_eq_map, unexpectedOutcomes_eq_map, hContains]
  exact (hFirst.filter _).map _

theorem lacksSome_perm (hFirst : (first.map (·.1)).Perm (second.map (·.1)))
    (hNames : names.Perm others) : lacksSome first names = lacksSome second others := by
  rw [Bool.eq_iff_iff]
  simp only [lacksSome, List.any_eq_true, firstNamed?_isNone_iff, hFirst.mem_iff, hNames.mem_iff]

theorem countOutcomes_perm (hFirst : (first.map (·.1)).Perm (second.map (·.1)))
    (hNames : names.Perm others) :
    countOutcomes path first names = countOutcomes path second others := by
  have hLength := hFirst.length_eq
  rw [List.length_map, List.length_map] at hLength
  have hUnexpected : (unexpectedOutcomes path first names).isEmpty =
      (unexpectedOutcomes path second others).isEmpty :=
    (unexpectedOutcomes_perm hFirst hNames).isEmpty_eq
  rw [countOutcomes, countOutcomes, lacksSome_perm hFirst hNames, hUnexpected, hLength,
    hNames.length_eq]

end Names

/-! ### Outcomes of children -/

/-- Whatever decoded value the two expectations are compared with, its order and theirs decide
the order of the outcomes alone. -/
def OutcomesAlike (pool : ConstantPool) (wanted other : ExpectedElement) : Prop :=
  ∀ node reordered path, WellNamed pool node → Reordered node reordered →
    (outcomesAt pool path node wanted).Perm (outcomesAt pool path reordered other)

private theorem memberOutcomes_perm {wanted other : String × ExpectedElement}
    (hNamed : ∀ entry ∈ first, WellNamed pool entry.2) (hAlike : NamedAlike first second)
    (hName : wanted.1 = other.1) (hValue : OutcomesAlike pool wanted.2 other.2) :
    (memberOutcomes pool path first wanted).Perm (memberOutcomes pool path second other) := by
  have hFound := hAlike.values wanted.1
  rw [memberOutcomes, memberOutcomes, ← hName]
  cases hFirst : firstNamed? wanted.1 first with
  | none =>
      rw [hFirst] at hFound
      cases hSecond : firstNamed? wanted.1 second with
      | none => exact .refl _
      | some value =>
          rw [hSecond] at hFound
          cases hFound
  | some value =>
      rw [hFirst] at hFound
      cases hSecond : firstNamed? wanted.1 second with
      | none =>
          rw [hSecond] at hFound
          cases hFound
      | some reordered =>
          rw [hSecond] at hFound
          cases hFound with
          | some hReordered =>
              have hMem := firstNamed?_mem hFirst
              exact hValue value reordered _ (hNamed _ hMem) hReordered

private theorem flatMap_perm_of_forall₂ {α β γ : Type} {convert : α → List γ}
    {convert' : β → List γ} {left : List α} {right : List β}
    (hSame : List.Forall₂ (fun item other => (convert item).Perm (convert' other)) left right) :
    (left.flatMap convert).Perm (right.flatMap convert') := by
  induction hSame with
  | nil => exact .refl _
  | cons hItem hRest ih =>
      rw [List.flatMap_cons, List.flatMap_cons]
      exact hItem.append ih

private theorem itemOutcomes_perm {position : Nat} {items others : List DecodedElement}
    {wanted otherWanted : List ExpectedElement}
    (hNamed : ∀ item ∈ items, WellNamed pool item)
    (hItems : List.Forall₂ Reordered items others)
    (hWanted : List.Forall₂ (OutcomesAlike pool) wanted otherWanted) :
    (itemOutcomes pool path position items wanted).Perm
      (itemOutcomes pool path position others otherWanted) := by
  induction hWanted generalizing position items others with
  | nil =>
      cases hItems with
      | nil => exact .refl _
      | cons hItem hRest => exact .refl _
  | cons hFirst hRest ih =>
      cases hItems with
      | nil => exact .refl _
      | cons hItem hOthers =>
          rw [List.forall_mem_cons] at hNamed
          rw [itemOutcomes, itemOutcomes]
          exact (hFirst _ _ _ hNamed.1 hItem).append (ih hNamed.2 hOthers)

/-! ### Values of one shape -/

private theorem outcomesAt_perm_of_tag_ne {node reordered : DecodedElement}
    {wanted other : ExpectedElement} (hTag : wanted.tag ≠ node.tag)
    (hNode : Reordered node reordered) (hWanted : wanted.Reordered other) :
    (outcomesAt pool path node wanted).Perm (outcomesAt pool path reordered other) := by
  have hOther : other.tag ≠ reordered.tag := by
    rw [← Element.Corresponds.tag_eq hNode, ← Element.Corresponds.tag_eq hWanted]
    exact hTag
  rw [outcomesAt_of_tag_ne hTag, outcomesAt_of_tag_ne hOther, Element.Corresponds.tag_eq hNode,
    Element.Corresponds.tag_eq hWanted]

private theorem outcomesAt_annotationValue_perm {typeIndex : UInt16} {typeName : String}
    {pairs others : List (UInt16 × DecodedElement)}
    {arranged wanted otherWanted : List (String × ExpectedElement)}
    (hFirst : resolveNames pool pairs = .ok first)
    (hSecond : resolveNames pool others = .ok second)
    (hNamed : ∀ entry ∈ first, WellNamed pool entry.2) (hAlike : NamedAlike first second)
    (hPerm : arranged.Perm wanted)
    (hSame : List.Forall₂ (Paired (OutcomesAlike pool)) arranged otherWanted) :
    (outcomesAt pool path (.annotationValue typeIndex pairs)
      (.annotationValue typeName wanted)).Perm
        (outcomesAt pool path (.annotationValue typeIndex others)
          (.annotationValue typeName otherWanted)) := by
  have hNames := names_perm_of_arranged hPerm hSame
  have hMembers : (wanted.flatMap (memberOutcomes pool path first)).Perm
      (otherWanted.flatMap (memberOutcomes pool path second)) := by
    apply (hPerm.flatMap_right _).symm.trans
    apply flatMap_perm_of_forall₂
    exact hSame.imp fun pair partner hPair =>
      memberOutcomes_perm hNamed hAlike hPair.1 hPair.2
  have hUnexpected : (unexpectedOutcomes path first (wanted.map (·.1))).Perm
      (unexpectedOutcomes path second (otherWanted.map (·.1))) :=
    unexpectedOutcomes_perm hAlike.names hNames
  rw [outcomesAt_annotationValue hFirst, outcomesAt_annotationValue hSecond,
    countOutcomes_perm hAlike.names hNames]
  exact (((hMembers.append hUnexpected).append_right _).cons _).cons _

private theorem outcomesAt_array_perm {items others : List DecodedElement}
    {wanted otherWanted : List ExpectedElement} (hNamed : ∀ item ∈ items, WellNamed pool item)
    (hItems : List.Forall₂ Reordered items others)
    (hWanted : List.Forall₂ (OutcomesAlike pool) wanted otherWanted) :
    (outcomesAt pool path (.array items) (.array wanted)).Perm
      (outcomesAt pool path (.array others) (.array otherWanted)) := by
  by_cases hLength : items.length = wanted.length
  · have hOther : others.length = otherWanted.length := by
      rw [← hItems.length_eq, hLength, hWanted.length_eq]
    rw [outcomesAt_array hLength, outcomesAt_array hOther]
    exact ((itemOutcomes_perm hNamed hItems hWanted).cons _).cons _
  · have hOther : ¬ others.length = otherWanted.length := by
      rw [← hItems.length_eq, ← hWanted.length_eq]
      exact hLength
    rw [outcomesAt_array_of_length_ne hLength, outcomesAt_array_of_length_ne hOther,
      hItems.length_eq, hWanted.length_eq]

theorem outcomesAlike_of_reordered {wanted other : ExpectedElement}
    (hWanted : wanted.Reordered other) : OutcomesAlike pool wanted other := by
  unfold ExpectedElement.Reordered at hWanted
  induction hWanted with
  | literal hToken =>
      intro node reordered path hNamed hNode
      cases hToken
      cases hNode with
      | literal hIndex =>
          cases hIndex
          exact .refl _
      | _ => exact .refl _
  | enumConstant hType hName =>
      intro node reordered path hNamed hNode
      cases hType
      cases hName
      cases hNode with
      | enumConstant hTypeIndex hNameIndex =>
          cases hTypeIndex
          cases hNameIndex
          exact .refl _
      | _ => exact .refl _
  | classLiteral hDescriptor =>
      intro node reordered path hNamed hNode
      cases hDescriptor
      cases hNode with
      | classLiteral hIndex =>
          cases hIndex
          exact .refl _
      | _ => exact .refl _
  | @annotationValue typeName otherType pairs others hType partner hNames hValues ih =>
      intro node reordered path hNamed hNode
      by_cases hTag : Tag.annotationValue = node.tag
      · cases hNode with
        | annotationValue hTypeIndex nodePartner hNodeNames hNodeValues =>
            cases hType
            cases hTypeIndex
            obtain ⟨named, hResolved, hNodup, hNamedValues⟩ := exists_named_of_wellNamed hNamed
            obtain ⟨otherNamed, hOtherResolved, hAlike⟩ :=
              exists_namedAlike hResolved hNodup nodePartner hNodeNames hNodeValues
            have hPaired : ∀ index, Paired (OutcomesAlike pool) (pairs.get index)
                (others.get (partner index)) := fun index => ⟨hNames index, ih index⟩
            obtain ⟨arranged, hPerm, hSame⟩ := exists_arranged partner hPaired
            exact outcomesAt_annotationValue_perm hResolved hOtherResolved hNamedValues hAlike
              hPerm hSame
        | _ => cases hTag
      · exact outcomesAt_perm_of_tag_ne hTag hNode (.annotationValue hType partner hNames hValues)
  | array hLength hItems ih =>
      intro node reordered path hNamed hNode
      by_cases hTag : Tag.array = node.tag
      · cases hNode with
        | array hNodeLength hNodeItems =>
            exact outcomesAt_array_perm (wellNamed_of_mem_items hNamed)
              (List.forall₂_iff_get.2 ⟨hNodeLength, hNodeItems⟩)
              (List.forall₂_iff_get.2 ⟨hLength, ih⟩)
        | _ => cases hTag
      · exact outcomesAt_perm_of_tag_ne hTag hNode (.array hLength hItems)

/-- The order of named values, at any depth of the decoded value and of the expectation, does
not matter: a comparison records the same outcomes, each as many times, whether they are
matches or not. -/
theorem outcomes_perm_of_reordered (pool : ConstantPool) (node reordered : DecodedElement)
    (expected other : ExpectedElement) (hNamed : node.WellNamed pool)
    (hNode : node.Reordered reordered) (hExpected : expected.Reordered other) :
    (outcomes pool reordered other).Perm (outcomes pool node expected) :=
  (outcomesAlike_of_reordered hExpected node reordered Outcome.rootPath hNamed hNode).symm

private theorem corresponds_swap {α : Type} {typeName : α} {first second : α × Element α}
    {first' second' : Element α} (hFirst : Element.Corresponds (fun _ => Eq) first.2 first')
    (hSecond : Element.Corresponds (fun _ => Eq) second.2 second') :
    Element.Corresponds (fun _ => Eq) (.annotationValue typeName [first, second])
      (.annotationValue typeName [(second.1, second'), (first.1, first')]) :=
  .annotationValue rfl (Equiv.swap 0 1) (Fin.forall_fin_two.2 ⟨rfl, rfl⟩)
    (Fin.forall_fin_two.2 ⟨hFirst, hSecond⟩)

/-- Annotations inside annotations, all of them turned round. The inner expectation repeats a
name and misses another, and the value that it finds does not resolve. -/
theorem outcomes_perm_of_reordered_nested :
    let node : DecodedElement := .annotationValue 1
      [(2, .annotationValue 1 [(2, .literal .int 4), (3, .literal .int 9)]), (3, .literal .int 5)]
    let reordered : DecodedElement := .annotationValue 1
      [(3, .literal .int 5), (2, .annotationValue 1 [(3, .literal .int 9), (2, .literal .int 4)])]
    let expected : ExpectedElement := .annotationValue "LA;"
      [("b", .literal .int "1"),
        ("a", .annotationValue "LA;" [("b", .literal .int "1"), ("b", .literal .int "x")])]
    let other : ExpectedElement := .annotationValue "LA;"
      [("a", .annotationValue "LA;" [("b", .literal .int "x"), ("b", .literal .int "1")]),
        ("b", .literal .int "1")]
    node.WellNamed samplePool ∧ node.Reordered reordered ∧ expected.Reordered other ∧
      ¬ AllMatch (outcomes samplePool node expected) ∧
      (outcomes samplePool reordered other).Perm (outcomes samplePool node expected) := by
  intro node reordered expected other
  have hFirst : samplePool.utf8 2 = .ok "a" := rfl
  have hSecond : samplePool.utf8 3 = .ok "b" := rfl
  have hPairs {first second : DecodedElement} (hNamed : first.WellNamed samplePool)
      (hOther : second.WellNamed samplePool) :
      DecodedElement.WellNamed samplePool (.annotationValue 1 [(2, first), (3, second)]) := by
    constructor
    · apply Element.NamesAll.annotationValue
      · simp [hFirst, hSecond]
      · rw [List.forall_mem_cons, List.forall_mem_singleton]
        exact ⟨hNamed.resolve, hOther.resolve⟩
    · apply Element.NamesApart.annotationValue
      · simp [ConstantPool.SameText, hFirst, hSecond]
      · rw [List.forall_mem_cons, List.forall_mem_singleton]
        exact ⟨hNamed.distinct, hOther.distinct⟩
  have hNamed : node.WellNamed samplePool :=
    hPairs (hPairs ⟨.literal, .literal⟩ ⟨.literal, .literal⟩) ⟨.literal, .literal⟩
  have hNode : node.Reordered reordered :=
    corresponds_swap (corresponds_swap (.literal rfl) (.literal rfl)) (.literal rfl)
  have hExpected : expected.Reordered other :=
    corresponds_swap (.literal rfl) (corresponds_swap (.literal rfl) (.literal rfl))
  have hFails : ¬ ∀ outcome ∈ outcomes samplePool node expected, outcome.isMatch = true := by
    decide
  exact ⟨hNamed, hNode, hExpected, hFails,
    outcomes_perm_of_reordered _ _ _ _ _ hNamed hNode hExpected⟩

end Comparison

end AnnotationDefaults
