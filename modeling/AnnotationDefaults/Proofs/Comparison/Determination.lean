import AnnotationDefaults.Proofs.Expectation.Rendering
import Mathlib.Data.List.Perm.Subperm

set_option autoImplicit false

/-!
What an expectation pins down. Values accepted by one expectation have renderings
that differ only in the order of named values, provided that the expectation repeats
no name inside an annotation. The condition is needed wherever the expectation
accepts anything: of a repeated name only the first value is looked at, so a value
behind it may be replaced by one that does not even resolve.
-/

namespace AnnotationDefaults

namespace ExpectedElement

/-- Equal up to the order of the named values inside annotations. -/
def Reordered : ExpectedElement → ExpectedElement → Prop := Element.Corresponds fun _ => Eq

end ExpectedElement

namespace Comparison

open ExpectedElement

variable {pool : ConstantPool}

private theorem nodup_of_subset {left right : List String} (hNodup : left.Nodup)
    (hSubset : left ⊆ right) (hLength : right.length ≤ left.length) : right.Nodup :=
  ((hNodup.subperm hSubset).perm_of_length_le hLength).nodup_iff.1 hNodup

/-! ### Expectations without a repeated name -/

theorem Accepts.distinctNames {node : DecodedElement} {expected : ExpectedElement}
    (hAccepts : Accepts pool node expected) (hApart : Element.NamesApart Eq expected) :
    node.DistinctNames pool := by
  unfold DecodedElement.DistinctNames
  induction expected using Element.inductionOn generalizing node with
  | literal kind token =>
      obtain ⟨index, rfl, -⟩ := accepts_literal_iff.1 hAccepts
      exact .literal
  | enumConstant typeName constantName =>
      obtain ⟨typeIndex, constantIndex, rfl, -⟩ := accepts_enumConstant_iff.1 hAccepts
      exact .enumConstant
  | classLiteral descriptor =>
      obtain ⟨index, rfl, -⟩ := accepts_classLiteral_iff.1 hAccepts
      exact .classLiteral
  | annotationValue typeName expected ih =>
      obtain ⟨typeIndex, pairs, named, rfl, -, hNamed, hFound, hNames, hCount⟩ :=
        accepts_annotationValue_iff.1 hAccepts
      obtain _ | _ | _ | ⟨hPairwise, hValues⟩ | _ := hApart
      have hNodup : (named.map (·.1)).Nodup := by
        refine nodup_of_subset (List.pairwise_map.2 hPairwise) (fun name hMem => ?_) ?_
        · rcases List.mem_map.1 hMem with ⟨pair, hPair, rfl⟩
          obtain ⟨value, hFirst, -⟩ := hFound pair hPair
          exact List.mem_map_of_mem (firstNamed?_mem hFirst)
        · rw [List.length_map, List.length_map, hCount]
      apply Element.NamesApart.annotationValue ((namesApart_iff_nodup hNamed).2 hNodup)
      intro pair hPair
      obtain ⟨entry, hEntry, -, hSame⟩ :=
        exists_right_of_mem (resolveNames_eq_ok_iff.1 hNamed) hPair
      rcases List.mem_map.1 (hNames entry hEntry) with ⟨wanted, hWanted, hName⟩
      obtain ⟨value, hFirst, hValue⟩ := hFound wanted hWanted
      rw [hName, firstNamed?_of_mem hNodup hEntry] at hFirst
      cases hFirst
      rw [hSame]
      exact ih wanted hWanted hValue (hValues wanted hWanted)
  | array expected ih =>
      obtain ⟨items, rfl, hLength, hItems⟩ := accepts_array_iff.1 hAccepts
      obtain _ | _ | _ | _ | hApartItems := hApart
      apply Element.NamesApart.array
      intro item hItem
      rcases List.get_of_mem hItem with ⟨index, rfl⟩
      have hWanted := index.2.trans_eq hLength
      exact ih _ (List.get_mem expected ⟨index, hWanted⟩) (hItems index index.2 hWanted)
        (hApartItems _ (List.get_mem expected ⟨index, hWanted⟩))

/-- Two accepted values have renderings, and these differ only in the order of named
values. -/
theorem Accepts.reordered {first second : DecodedElement} {expected : ExpectedElement}
    (hFirst : Accepts pool first expected) (hSecond : Accepts pool second expected)
    (hApart : Element.NamesApart Eq expected) :
    ∃ left right, ofDecoded pool first = .ok left ∧ ofDecoded pool second = .ok right ∧
      Reordered left right := by
  obtain ⟨left, hLeft, hLeftWritten⟩ :=
    exists_ofDecoded (hFirst.conforms (hFirst.distinctNames hApart))
  obtain ⟨right, hRight, hRightWritten⟩ :=
    exists_ofDecoded (hSecond.conforms (hSecond.distinctNames hApart))
  refine ⟨left, right, hLeft, hRight, ?_⟩
  refine Element.Corresponds.joined ?_ hLeftWritten hRightWritten
  intro role text other written hText hOther
  exact leafToken_unique hText hOther

/-! ### Expectations that repeat a name -/

/-- The value has no rendering. -/
def Unrenderable (pool : ConstantPool) (node : DecodedElement) : Prop :=
  ∀ rendered, ofDecoded pool node ≠ .ok rendered

theorem unrenderable_slotZero : Unrenderable pool (.literal .int 0) := by
  intro rendered hRendered
  obtain ⟨token, hToken, -⟩ := Element.traverse_literal_eq_ok_iff.1 hRendered
  obtain ⟨value, hValue, -⟩ := leafText_literal_eq_ok_iff.1 hToken
  cases hValue

theorem unrenderable_annotationValue {typeIndex : UInt16}
    {pairs : List (UInt16 × DecodedElement)} {pair : UInt16 × DecodedElement}
    (hPair : pair ∈ pairs) (hValue : Unrenderable pool pair.2) :
    Unrenderable pool (.annotationValue typeIndex pairs) := by
  intro rendered hRendered
  obtain ⟨_, converted, -, hPairs, -⟩ := Element.traverse_annotationValue_eq_ok_iff.1 hRendered
  obtain ⟨entry, -, -, hEntry⟩ := exists_right_of_mem hPairs hPair
  exact hValue _ hEntry

theorem unrenderable_array {items : List DecodedElement} {item : DecodedElement}
    (hItem : item ∈ items) (hValue : Unrenderable pool item) :
    Unrenderable pool (.array items) := by
  intro rendered hRendered
  obtain ⟨converted, hItems, -⟩ := Element.traverse_array_eq_ok_iff.1 hRendered
  obtain ⟨entry, -, hEntry⟩ := exists_right_of_mem hItems hItem
  exact hValue _ hEntry

/-- The first entries of all names but `name` are the same, and so are all names. -/
structure SameBut (name : String) (named changed : List (String × DecodedElement)) : Prop where
  names : changed.map (·.1) = named.map (·.1)
  others : ∀ other, other ≠ name → firstNamed? other changed = firstNamed? other named

theorem firstNamed?_cons {name : String} {entry : String × DecodedElement}
    {rest : List (String × DecodedElement)} :
    firstNamed? name (entry :: rest) =
      if entry.1 = name then some entry.2 else firstNamed? name rest := by
  by_cases hName : entry.1 = name
  · simp [firstNamed?, hName]
  · simp [firstNamed?, hName]

private theorem exists_exchanged {pairs : List (UInt16 × DecodedElement)}
    {named : List (String × DecodedElement)} {name : String} (value : DecodedElement)
    (hNamed : resolveNames pool pairs = .ok named) (hName : name ∈ named.map (·.1)) :
    ∃ changed changedNamed, resolveNames pool changed = .ok changedNamed ∧
      SameBut name named changedNamed ∧ firstNamed? name changedNamed = some value ∧
      ∃ pair ∈ changed, pair.2 = value := by
  rw [resolveNames_eq_ok_iff] at hNamed
  induction hNamed with
  | nil => cases hName
  | @cons pair entry rest others hPair hRest ih =>
      by_cases hFirst : entry.1 = name
      · refine ⟨(pair.1, value) :: rest, (entry.1, value) :: others,
          resolveNames_eq_ok_iff.2 (.cons ⟨hPair.1, rfl⟩ hRest), ⟨rfl, fun other hOther => ?_⟩, ?_,
          (pair.1, value), List.mem_cons_self, rfl⟩
        · rw [firstNamed?_cons, firstNamed?_cons, hFirst, if_neg hOther.symm, if_neg hOther.symm]
        · rw [firstNamed?_cons, if_pos hFirst]
      · have hLater : name ∈ others.map (·.1) := by
          rcases List.mem_cons.1 hName with hSame | hLater
          · exact absurd hSame.symm hFirst
          · exact hLater
        obtain ⟨changed, changedNamed, hChanged, hSame, hValue, source, hSource, hSourceValue⟩ :=
          ih hLater
        refine ⟨pair :: changed, entry :: changedNamed,
          resolveNames_eq_ok_iff.2 (.cons hPair (resolveNames_eq_ok_iff.1 hChanged)),
          ⟨?_, fun other hOther => ?_⟩, ?_, source, List.mem_cons_of_mem _ hSource, hSourceValue⟩
        · rw [List.map_cons, List.map_cons, hSame.names]
        · rw [firstNamed?_cons, firstNamed?_cons, hSame.others other hOther]
        · rw [firstNamed?_cons, if_neg hFirst, hValue]

/-- A later value of a repeated name can be exchanged for any other, and no first
value changes. -/
private theorem exists_hidden {pairs : List (UInt16 × DecodedElement)}
    {named : List (String × DecodedElement)} (value : DecodedElement)
    (hNamed : resolveNames pool pairs = .ok named) (hRepeats : ¬ (named.map (·.1)).Nodup) :
    ∃ changed changedNamed, resolveNames pool changed = .ok changedNamed ∧
      changedNamed.map (·.1) = named.map (·.1) ∧
      (∀ name, firstNamed? name changedNamed = firstNamed? name named) ∧
      ∃ pair ∈ changed, pair.2 = value := by
  rw [resolveNames_eq_ok_iff] at hNamed
  induction hNamed with
  | nil => exact absurd List.nodup_nil hRepeats
  | @cons pair entry rest others hPair hRest ih =>
      by_cases hLater : entry.1 ∈ others.map (·.1)
      · obtain ⟨changed, changedNamed, hChanged, hSame, -, source, hSource, hSourceValue⟩ :=
          exists_exchanged value (resolveNames_eq_ok_iff.2 hRest) hLater
        refine ⟨pair :: changed, entry :: changedNamed,
          resolveNames_eq_ok_iff.2 (.cons hPair (resolveNames_eq_ok_iff.1 hChanged)),
          ?_, fun name => ?_, source, List.mem_cons_of_mem _ hSource, hSourceValue⟩
        · rw [List.map_cons, List.map_cons, hSame.names]
        · rw [firstNamed?_cons, firstNamed?_cons]
          by_cases hName : entry.1 = name
          · rw [if_pos hName, if_pos hName]
          · rw [if_neg hName, if_neg hName, hSame.others name (Ne.symm hName)]
      · have hRepeatsLater : ¬ (others.map (·.1)).Nodup := by
          intro hNodup
          exact hRepeats (List.nodup_cons.2 ⟨hLater, hNodup⟩)
        obtain ⟨changed, changedNamed, hChanged, hNames, hFirst, source, hSource, hSourceValue⟩ :=
          ih hRepeatsLater
        refine ⟨pair :: changed, entry :: changedNamed,
          resolveNames_eq_ok_iff.2 (.cons hPair (resolveNames_eq_ok_iff.1 hChanged)),
          ?_, fun name => ?_, source, List.mem_cons_of_mem _ hSource, hSourceValue⟩
        · rw [List.map_cons, List.map_cons, hNames]
        · rw [firstNamed?_cons, firstNamed?_cons, hFirst]

theorem Accepts.exists_unrenderable {node : DecodedElement} {expected : ExpectedElement}
    (hAccepts : Accepts pool node expected) (hRepeats : ¬ Element.NamesApart Eq expected) :
    ∃ other, Accepts pool other expected ∧ Unrenderable pool other := by
  induction expected using Element.inductionOn generalizing node with
  | literal kind token => exact absurd .literal hRepeats
  | enumConstant typeName constantName => exact absurd .enumConstant hRepeats
  | classLiteral descriptor => exact absurd .classLiteral hRepeats
  | annotationValue typeName expected ih =>
      obtain ⟨typeIndex, pairs, named, rfl, hType, hNamed, hFound, hNames, hCount⟩ :=
        accepts_annotationValue_iff.1 hAccepts
      have hKept {changed : List (UInt16 × DecodedElement)}
          {changedNamed : List (String × DecodedElement)}
          (hChanged : resolveNames pool changed = .ok changedNamed)
          (hSame : changedNamed.map (·.1) = named.map (·.1))
          (hFirst : ∀ pair ∈ expected, ∃ value, firstNamed? pair.1 changedNamed = some value ∧
            Accepts pool value pair.2) :
          Accepts pool (.annotationValue typeIndex changed)
            (.annotationValue typeName expected) := by
        refine accepts_annotationValue_iff.2
          ⟨typeIndex, changed, changedNamed, rfl, hType, hChanged, hFirst,
            fun entry hEntry => ?_, ?_⟩
        · have hMem : entry.1 ∈ named.map (·.1) := by
            rw [← hSame]
            exact List.mem_map_of_mem hEntry
          rcases List.mem_map.1 hMem with ⟨original, hOriginal, hName⟩
          rw [← hName]
          exact hNames original hOriginal
        · have hLength := congrArg List.length hSame
          rw [List.length_map, List.length_map] at hLength
          exact hLength.trans hCount
      by_cases hNodup : (expected.map (·.1)).Nodup
      · -- the repeated name is further inside, below a name that occurs once
        obtain ⟨pair, hPair, hInside⟩ : ∃ pair ∈ expected, ¬ Element.NamesApart Eq pair.2 := by
          by_contra hNone
          refine hRepeats (.annotationValue (List.pairwise_map.1 hNodup) fun pair hPair => ?_)
          by_contra hInside
          exact hNone ⟨pair, hPair, hInside⟩
        obtain ⟨value, hValue, hValueAccepts⟩ := hFound pair hPair
        obtain ⟨other, hOther, hUnrenderable⟩ := ih pair hPair hValueAccepts hInside
        obtain ⟨changed, changedNamed, hChanged, hSame, hExchanged, source, hSource,
            hSourceValue⟩ :=
          exists_exchanged other hNamed (List.mem_map_of_mem (firstNamed?_mem hValue))
        refine ⟨_, hKept hChanged hSame.names fun wanted hWanted => ?_,
          unrenderable_annotationValue hSource (hSourceValue ▸ hUnrenderable)⟩
        by_cases hName : wanted.1 = pair.1
        · rw [List.inj_on_of_nodup_map hNodup hWanted hPair hName]
          exact ⟨other, hExchanged, hOther⟩
        · rw [hSame.others wanted.1 hName]
          exact hFound wanted hWanted
      · have hNamedRepeats : ¬ (named.map (·.1)).Nodup := by
          intro hNamedNodup
          refine hNodup (nodup_of_subset hNamedNodup (fun name hMem => ?_) ?_)
          · rcases List.mem_map.1 hMem with ⟨entry, hEntry, rfl⟩
            exact hNames entry hEntry
          · rw [List.length_map, List.length_map, hCount]
        obtain ⟨changed, changedNamed, hChanged, hSame, hFirst, source, hSource, hSourceValue⟩ :=
          exists_hidden (.literal .int 0) hNamed hNamedRepeats
        refine ⟨_, hKept hChanged hSame fun wanted hWanted => ?_,
          unrenderable_annotationValue hSource (hSourceValue ▸ unrenderable_slotZero)⟩
        rw [hFirst]
        exact hFound wanted hWanted
  | array expected ih =>
      obtain ⟨items, rfl, hLength, hItems⟩ := accepts_array_iff.1 hAccepts
      obtain ⟨wanted, hWanted, hInside⟩ : ∃ wanted ∈ expected, ¬ Element.NamesApart Eq wanted := by
        by_contra hNone
        refine hRepeats (.array fun wanted hWanted => ?_)
        by_contra hInside
        exact hNone ⟨wanted, hWanted, hInside⟩
      rcases List.get_of_mem hWanted with ⟨place, rfl⟩
      have hPlace := place.2.trans_eq hLength.symm
      obtain ⟨other, hOther, hUnrenderable⟩ :=
        ih _ hWanted (hItems place hPlace place.2) hInside
      refine ⟨.array (items.set place other), accepts_array_iff.2 ⟨_, rfl, ?_, ?_⟩,
        unrenderable_array (List.mem_set hPlace other) hUnrenderable⟩
      · rw [List.length_set, hLength]
      · intro index hItem hExpected
        rw [List.get_eq_getElem, List.getElem_set]
        by_cases hSame : place.1 = index
        · subst hSame
          rw [if_pos rfl]
          exact hOther
        · rw [if_neg hSame]
          exact hItems index (by rwa [List.length_set] at hItem) hExpected

/-- An expectation has accepted values rendered alike, up to the order of named values,
exactly if it repeats no name inside an annotation, or accepts nothing. -/
theorem accepted_renderings_reordered_iff (pool : ConstantPool) (expected : ExpectedElement) :
    (∀ first second,
        (∀ outcome ∈ outcomes pool first expected, outcome.isMatch = true) →
        (∀ outcome ∈ outcomes pool second expected, outcome.isMatch = true) →
        ∃ left right, ofDecoded pool first = .ok left ∧ ofDecoded pool second = .ok right ∧
          Reordered left right) ↔
      ((∃ node, ∀ outcome ∈ outcomes pool node expected, outcome.isMatch = true) →
        Element.NamesApart Eq expected) := by
  constructor
  · rintro hPinned ⟨node, hMatch⟩
    by_contra hRepeats
    have hAccepts : Accepts pool node expected := hMatch
    obtain ⟨other, hOther, hUnrenderable⟩ := hAccepts.exists_unrenderable hRepeats
    obtain ⟨left, right, hLeft, -⟩ := hPinned other other hOther hOther
    exact hUnrenderable left hLeft
  · intro hApart first second hFirst hSecond
    have hAccepts : Accepts pool first expected := hFirst
    exact hAccepts.reordered hSecond (hApart ⟨first, hFirst⟩)

/-- An expectation that repeats a name accepts two values whose renderings differ in the
second value of that name. -/
theorem renderings_differ_repeated_name :
    let first : DecodedElement := .annotationValue 1 [(2, .literal .int 4), (2, .literal .int 5)]
    let second : DecodedElement := .annotationValue 1 [(2, .literal .int 4), (2, .literal .int 4)]
    let expected : ExpectedElement :=
      .annotationValue "LA;" [("a", .literal .int "1"), ("a", .literal .int "1")]
    (∀ outcome ∈ outcomes samplePool first expected, outcome.isMatch = true) ∧
      (∀ outcome ∈ outcomes samplePool second expected, outcome.isMatch = true) ∧
      ¬ ∃ left right, ofDecoded samplePool first = .ok left ∧
        ofDecoded samplePool second = .ok right ∧ Reordered left right := by
  intro first second expected
  refine ⟨by decide, by decide, ?_⟩
  intro hGiven
  rcases hGiven with ⟨left, right, hLeft, hRight, hSame⟩
  have hFirst : ofDecoded samplePool first =
      .ok (.annotationValue "LA;" [("a", .literal .int "1"), ("a", .literal .int "2")]) := rfl
  have hSecond : ofDecoded samplePool second =
      .ok (.annotationValue "LA;" [("a", .literal .int "1"), ("a", .literal .int "1")]) := rfl
  cases hFirst.symm.trans hLeft
  cases hSecond.symm.trans hRight
  obtain _ | _ | _ | ⟨-, partner, -, hValues⟩ | _ := hSame
  have hOnes : ∀ other : Fin 2,
      (([("a", .literal .int "1"), ("a", .literal .int "1")] :
        List (String × ExpectedElement)).get other).2 = .literal .int "1"
    | 0 => rfl
    | 1 => rfl
  have hTwo := hValues (1 : Fin 2)
  rw [hOnes (partner (1 : Fin 2))] at hTwo
  obtain ⟨hToken⟩ | _ | _ | _ | _ := hTwo
  exact absurd hToken (by decide)

end Comparison

end AnnotationDefaults
