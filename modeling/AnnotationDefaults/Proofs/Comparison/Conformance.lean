import AnnotationDefaults.Proofs.Comparison.Acceptance

set_option autoImplicit false

/-!
Conformance of decoded values to expectations. Conformance pairs off the named
values of an annotation by a bijection and compares leaves by what they refer to; it
knows neither lookups by name nor counts. The main statement: for a decoded value
whose annotations do not repeat a name, a comparison records no failure exactly if
the value conforms. The expectation may repeat names.
-/

namespace AnnotationDefaults

def ConstantPool.SameText (pool : ConstantPool) (first second : UInt16) : Prop :=
  ∃ text, pool.utf8 first = .ok text ∧ pool.utf8 second = .ok text

/-- No annotation of the decoded value, at any depth, has two names of one text. -/
def DecodedElement.DistinctNames (pool : ConstantPool) (node : DecodedElement) : Prop :=
  Element.NamesApart pool.SameText node

namespace Comparison

/-- What a decoded leaf refers to is what the expected leaf says. A literal resolves,
its token is one of its kind, and both are the same value; any other leaf resolves to
the expected text. -/
def LeafConforms (pool : ConstantPool) : LeafRole → UInt16 → String → Prop
  | .literal kind, index, token => ∃ found wanted, Scalar.resolve pool kind index = .ok found ∧
      Scalar.ofToken kind token = .ok wanted ∧ found.agrees wanted = true
  | _, index, text => pool.utf8 index = .ok text

/-- The decoded value is what is expected, whatever the order of named values. -/
def Conforms (pool : ConstantPool) : DecodedElement → ExpectedElement → Prop :=
  Element.Corresponds (LeafConforms pool)

variable {pool : ConstantPool}

theorem namesApart_iff_nodup {pairs : List (UInt16 × DecodedElement)}
    {named : List (String × DecodedElement)} (hNamed : resolveNames pool pairs = .ok named) :
    (pairs.Pairwise fun first second => ¬ pool.SameText first.1 second.1) ↔
      (named.map (·.1)).Nodup := by
  rcases List.forall₂_iff_get.1 (resolveNames_eq_ok_iff.1 hNamed) with ⟨hLength, hResolved⟩
  rw [List.Nodup, List.pairwise_map, List.pairwise_iff_get, List.pairwise_iff_get]
  constructor
  · intro hApart first second hLess hSame
    have hFirstLess := first.2.trans_eq hLength.symm
    have hSecondLess := second.2.trans_eq hLength.symm
    obtain ⟨hFirst, -⟩ := hResolved first hFirstLess first.2
    obtain ⟨hSecond, -⟩ := hResolved second hSecondLess second.2
    refine hApart ⟨first, hFirstLess⟩ ⟨second, hSecondLess⟩ hLess ⟨_, hFirst, ?_⟩
    rw [hSecond]
    exact congrArg Except.ok hSame.symm
  · rintro hNodup first second hLess ⟨text, hFirstText, hSecondText⟩
    have hFirstLess := first.2.trans_eq hLength
    have hSecondLess := second.2.trans_eq hLength
    obtain ⟨hFirst, -⟩ := hResolved first first.2 hFirstLess
    obtain ⟨hSecond, -⟩ := hResolved second second.2 hSecondLess
    refine hNodup ⟨first, hFirstLess⟩ ⟨second, hSecondLess⟩ hLess ?_
    exact (Except.ok.inj (hFirst.symm.trans hFirstText)).trans
      (Except.ok.inj (hSecondText.symm.trans hSecond))

/-- Entries without a repeated name that all occur on the other side, which has no
more entries, are in one-to-one correspondence with it. -/
theorem exists_partner {α β : Type} {left : List (String × α)} {right : List (String × β)}
    (hNodup : (left.map (·.1)).Nodup) (hNames : ∀ entry ∈ left, entry.1 ∈ right.map (·.1))
    (hLength : left.length = right.length) :
    ∃ partner : Fin left.length ≃ Fin right.length,
      ∀ index, (left.get index).1 = (right.get (partner index)).1 := by
  have hPartner (index : Fin left.length) :
      ∃ other : Fin right.length, (left.get index).1 = (right.get other).1 := by
    rcases List.mem_map.1 (hNames _ (List.get_mem left index)) with ⟨entry, hEntry, hName⟩
    rcases List.get_of_mem hEntry with ⟨other, rfl⟩
    exact ⟨other, hName.symm⟩
  choose partner hSame using hPartner
  have hInjective : Function.Injective partner := by
    intro first second hEqual
    have hName : (left.get first).1 = (left.get second).1 := by
      rw [hSame, hSame, hEqual]
    have hEntry := List.inj_on_of_nodup_map hNodup (List.get_mem left first)
      (List.get_mem left second) hName
    exact List.nodup_iff_injective_get.1 (List.Nodup.of_map _ hNodup) hEntry
  have hBijective : Function.Bijective partner :=
    (Fintype.bijective_iff_injective_and_card partner).2 ⟨hInjective, by simp [hLength]⟩
  exact ⟨Equiv.ofBijective partner hBijective, hSame⟩

/-! ### Conformance against acceptance -/

private theorem conforms_annotationValue {typeIndex : UInt16} {typeName : String}
    {pairs : List (UInt16 × DecodedElement)} {expected : List (String × ExpectedElement)}
    {named : List (String × DecodedElement)} (hType : pool.utf8 typeIndex = .ok typeName)
    (hNamed : resolveNames pool pairs = .ok named) (hNodup : (named.map (·.1)).Nodup)
    (hFound : ∀ pair ∈ expected, ∃ value, firstNamed? pair.1 named = some value ∧
      Conforms pool value pair.2)
    (hNames : ∀ entry ∈ named, entry.1 ∈ expected.map (·.1))
    (hCount : named.length = expected.length) :
    Conforms pool (.annotationValue typeIndex pairs) (.annotationValue typeName expected) := by
  obtain ⟨partner, hPartner⟩ := exists_partner hNodup hNames hCount
  rcases List.forall₂_iff_get.1 (resolveNames_eq_ok_iff.1 hNamed) with ⟨hLength, hResolved⟩
  refine .annotationValue hType ((finCongr hLength).trans partner)
    (fun index => ?_) (fun index => ?_)
  · obtain ⟨hText, -⟩ := hResolved index index.2 (index.2.trans_eq hLength)
    have hName := hPartner (finCongr hLength index)
    exact hText.trans (congrArg Except.ok hName)
  · obtain ⟨-, hValue⟩ := hResolved index index.2 (index.2.trans_eq hLength)
    have hName := hPartner (finCongr hLength index)
    obtain ⟨value, hFirst, hConforms⟩ :=
      hFound _ (List.get_mem expected (partner (finCongr hLength index)))
    rw [← hName, firstNamed?_of_mem hNodup (List.get_mem named (finCongr hLength index))] at hFirst
    cases hFirst
    rw [hValue]
    exact hConforms

theorem Accepts.conforms {node : DecodedElement} {expected : ExpectedElement}
    (hAccepts : Accepts pool node expected) (hDistinct : node.DistinctNames pool) :
    Conforms pool node expected := by
  induction expected using Element.inductionOn generalizing node with
  | literal kind token =>
      obtain ⟨index, rfl, hValue⟩ := accepts_literal_iff.1 hAccepts
      exact .literal hValue
  | enumConstant typeName constantName =>
      obtain ⟨typeIndex, constantIndex, rfl, hType, hName⟩ :=
        accepts_enumConstant_iff.1 hAccepts
      exact .enumConstant hType hName
  | classLiteral descriptor =>
      obtain ⟨index, rfl, hText⟩ := accepts_classLiteral_iff.1 hAccepts
      exact .classLiteral hText
  | annotationValue typeName expected ih =>
      obtain ⟨typeIndex, pairs, named, rfl, hType, hNamed, hFound, hNames, hCount⟩ :=
        accepts_annotationValue_iff.1 hAccepts
      cases hDistinct with
      | annotationValue hApart hValues =>
          refine conforms_annotationValue hType hNamed ((namesApart_iff_nodup hNamed).1 hApart)
            (fun pair hPair => ?_) hNames hCount
          obtain ⟨value, hFirst, hValue⟩ := hFound pair hPair
          obtain ⟨source, hSource, -, hSame⟩ :=
            exists_left_of_mem (resolveNames_eq_ok_iff.1 hNamed) (firstNamed?_mem hFirst)
          refine ⟨value, hFirst, ih pair hPair hValue ?_⟩
          have hApartValue := hValues source hSource
          rw [hSame] at hApartValue
          exact hApartValue
  | array expected ih =>
      obtain ⟨items, rfl, hLength, hItems⟩ := accepts_array_iff.1 hAccepts
      cases hDistinct with
      | array hApart =>
          apply Element.Corresponds.array hLength
          intro index hItem hExpected
          exact ih _ (List.get_mem _ _) (hItems index hItem hExpected)
            (hApart _ (List.get_mem _ _))

theorem exists_named_of_partner {γ : Type} {related : DecodedElement → γ → Prop}
    {pairs : List (UInt16 × DecodedElement)} {entries : List (String × γ)}
    (partner : Fin pairs.length ≃ Fin entries.length)
    (hTexts : ∀ index, pool.utf8 (pairs.get index).1 = .ok (entries.get (partner index)).1)
    (hValues : ∀ index, related (pairs.get index).2 (entries.get (partner index)).2) :
    ∃ named arranged, resolveNames pool pairs = .ok named ∧ arranged.Perm named ∧
      List.Forall₂ (Paired related) arranged entries := by
  obtain ⟨arrangedPairs, hPerm, hSame⟩ :=
    @exists_arranged _ _ (fun pair entry => pool.utf8 pair.1 = .ok entry.1 ∧
      related pair.2 entry.2) _ _ partner fun index => ⟨hTexts index, hValues index⟩
  obtain ⟨arranged, hArranged, hPaired⟩ := exists_resolveNames_of_forall₂ hSame
  obtain ⟨named, hNamed, hNamedPerm⟩ :=
    List.perm_comp_forall₂ hPerm.symm (resolveNames_eq_ok_iff.1 hArranged)
  exact ⟨named, arranged, resolveNames_eq_ok_iff.2 hNamed, hNamedPerm.symm, hPaired⟩

theorem exists_firstNamed?_of_arranged {γ : Type} {related : DecodedElement → γ → Prop}
    {named arranged : List (String × DecodedElement)} {entries : List (String × γ)}
    (hNodup : (named.map (·.1)).Nodup) (hPerm : arranged.Perm named)
    (hSame : List.Forall₂ (Paired related) arranged entries) :
    ∀ entry ∈ entries, ∃ value, firstNamed? entry.1 named = some value ∧
      related value entry.2 := by
  intro entry hEntry
  obtain ⟨found, hFound, hName, hValue⟩ := exists_left_of_mem hSame hEntry
  have hFirst : firstNamed? found.1 named = some found.2 :=
    firstNamed?_of_mem hNodup (hPerm.mem_iff.1 hFound)
  rw [hName] at hFirst
  exact ⟨found.2, hFirst, hValue⟩

theorem Conforms.accepts {node : DecodedElement} {expected : ExpectedElement}
    (hConforms : Conforms pool node expected) (hDistinct : node.DistinctNames pool) :
    Accepts pool node expected := by
  unfold Conforms at hConforms
  induction hConforms with
  | literal hValue => exact accepts_literal_iff.2 ⟨_, rfl, hValue⟩
  | enumConstant hType hName => exact accepts_enumConstant_iff.2 ⟨_, _, rfl, hType, hName⟩
  | classLiteral hText => exact accepts_classLiteral_iff.2 ⟨_, rfl, hText⟩
  | @annotationValue typeIndex typeName pairs expected hType partner hTexts hValues ih =>
      cases hDistinct with
      | annotationValue hApart hApartValues =>
          have hAccepts : ∀ index,
              Accepts pool (pairs.get index).2 (expected.get (partner index)).2 :=
            fun index => ih index (hApartValues _ (List.get_mem pairs index))
          obtain ⟨named, arranged, hNamed, hPerm, hSame⟩ :=
            exists_named_of_partner partner hTexts hAccepts
          have hNodup := (namesApart_iff_nodup hNamed).1 hApart
          refine accepts_annotationValue_iff.2 ⟨typeIndex, pairs, named, rfl, hType, hNamed,
            exists_firstNamed?_of_arranged hNodup hPerm hSame, fun entry hEntry => ?_, ?_⟩
          · exact (names_perm_of_arranged hPerm hSame).mem_iff.1 (List.mem_map_of_mem hEntry)
          · rw [← hPerm.length_eq, hSame.length_eq]
  | array hLength hItems ih =>
      cases hDistinct with
      | array hApartItems =>
          refine accepts_array_iff.2 ⟨_, rfl, hLength, fun index hItem hExpected => ?_⟩
          exact ih index hItem hExpected (hApartItems _ (List.get_mem _ _))

/-- A comparison is sound and complete for conformance: of a decoded value whose
annotations do not repeat a name, every outcome is a match exactly if the value
conforms to the expectation, which may repeat names itself. -/
theorem allMatch_outcomes_iff_conforms (pool : ConstantPool) (node : DecodedElement)
    (expected : ExpectedElement) (hDistinct : node.DistinctNames pool) :
    (∀ outcome ∈ outcomes pool node expected, outcome.isMatch = true) ↔
      Conforms pool node expected := by
  constructor
  · intro hMatch
    have hAccepts : Accepts pool node expected := hMatch
    exact hAccepts.conforms hDistinct
  · intro hConforms
    exact hConforms.accepts hDistinct

def samplePool : ConstantPool :=
  .ofSlots [some (.utf8 "LA;"), some (.utf8 "a"), some (.utf8 "b"), some (.integer 1),
    some (.integer 2)]

/-- An annotation whose two values stand in the other order than expected. -/
theorem conforms_swapped_values :
    let node : DecodedElement :=
      .annotationValue 1 [(2, .literal .int 4), (3, .array [.literal .int 5])]
    let expected : ExpectedElement :=
      .annotationValue "LA;" [("b", .array [.literal .int "+2"]), ("a", .literal .int "1")]
    node.DistinctNames samplePool ∧ Conforms samplePool node expected := by
  intro node expected
  have hFirst : samplePool.utf8 2 = .ok "a" := rfl
  have hSecond : samplePool.utf8 3 = .ok "b" := rfl
  have hDistinct : node.DistinctNames samplePool := by
    refine .annotationValue ?_ ?_
    · simp [ConstantPool.SameText, hFirst, hSecond]
    · rw [List.forall_mem_cons, List.forall_mem_singleton]
      exact ⟨.literal, .array (by rw [List.forall_mem_singleton]; exact .literal)⟩
  exact ⟨hDistinct, (allMatch_outcomes_iff_conforms _ _ _ hDistinct).1 (by decide)⟩

end Comparison

end AnnotationDefaults
