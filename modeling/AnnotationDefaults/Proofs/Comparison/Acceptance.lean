import AnnotationDefaults.Proofs.Comparison.Outcomes
import AnnotationDefaults.Proofs.Element.Correspondence
import AnnotationDefaults.Proofs.Element.Traversal

set_option autoImplicit false

/-!
When a comparison records no failure. A value is accepted if every outcome is a
match; paths only label outcomes, so acceptance does not depend on them. For each
kind of expectation one equivalence says what is accepted, in terms of the accepted
children.
-/

namespace AnnotationDefaults

def AllMatch (outcomes : List Outcome) : Prop :=
  ∀ outcome ∈ outcomes, outcome.isMatch = true

namespace AllMatch

@[simp] theorem nil : AllMatch [] := by
  intro outcome hMem
  cases hMem

@[simp] theorem cons_iff {outcome : Outcome} {rest : List Outcome} :
    AllMatch (outcome :: rest) ↔ outcome.isMatch = true ∧ AllMatch rest := by
  simp only [AllMatch, List.forall_mem_cons]

@[simp] theorem append_iff {first second : List Outcome} :
    AllMatch (first ++ second) ↔ AllMatch first ∧ AllMatch second := by
  simp only [AllMatch, List.forall_mem_append]

end AllMatch

@[simp] theorem Outcome.isMatch_mk {path description : String} {check : Check} :
    (Outcome.mk path description check).isMatch = true ↔ check = .agreed := by
  simp only [Outcome.isMatch, beq_iff_eq]

namespace Comparison

variable {pool : ConstantPool} {path : String} {node : DecodedElement}

/-- The comparison of a value with an expectation records no failure. -/
def Accepts (pool : ConstantPool) (node : DecodedElement) (expected : ExpectedElement) : Prop :=
  AllMatch (outcomes pool node expected)

/-! ### Single comparisons -/

@[simp] theorem tagOutcome_isMatch {expected found : Tag} :
    (tagOutcome path expected found).isMatch = true ↔ expected = found := by
  by_cases hSame : expected = found
  · simp [tagOutcome, hSame]
  · simp [tagOutcome, hSame]

theorem textCheck_eq_agreed_iff {index : UInt16} {token : String} :
    textCheck pool index token = .agreed ↔ pool.utf8 index = .ok token := by
  unfold textCheck
  cases hText : pool.utf8 index with
  | error cause => simp
  | ok found =>
      by_cases hSame : found = token
      · simp [hSame]
      · simp [hSame]

theorem literalCheck_eq_agreed_iff {kind : LiteralTag} {index : UInt16} {token : String} :
    literalCheck pool kind index token = .agreed ↔
      ∃ found wanted, Scalar.resolve pool kind index = .ok found ∧
        Scalar.ofToken kind token = .ok wanted ∧ found.agrees wanted = true := by
  unfold literalCheck
  cases hFound : Scalar.resolve pool kind index with
  | error cause => simp
  | ok found =>
      cases hWanted : Scalar.ofToken kind token with
      | error cause => simp
      | ok wanted =>
          cases hAgree : found.agrees wanted with
          | false => simp [hAgree]
          | true => simp [hAgree]

/-! ### Names of an annotation -/

theorem resolveNames_eq_ok_iff {pairs : List (UInt16 × DecodedElement)}
    {named : List (String × DecodedElement)} :
    resolveNames pool pairs = .ok named ↔
      List.Forall₂ (fun pair entry => pool.utf8 pair.1 = .ok entry.1 ∧ pair.2 = entry.2)
        pairs named := by
  induction pairs generalizing named with
  | nil =>
      simp only [resolveNames, Except.ok.injEq, List.forall₂_nil_left_iff]
      exact eq_comm
  | cons pair rest ih =>
      rcases pair with ⟨index, value⟩
      simp only [resolveNames, bind_eq_ok_iff, pure_eq_ok_iff, List.forall₂_cons_left_iff]
      constructor
      · intro hGiven
        rcases hGiven with ⟨name, hName, entries, hEntries, rfl⟩
        exact ⟨(name, value), entries, ⟨hName, rfl⟩, ih.1 hEntries, rfl⟩
      · intro hGiven
        rcases hGiven with ⟨⟨name, value'⟩, entries, ⟨hName, rfl⟩, hEntries, rfl⟩
        exact ⟨name, hName, entries, ih.2 hEntries, rfl⟩

theorem exists_resolveNames_of_forall₂ {γ : Type} {related : DecodedElement → γ → Prop}
    {pairs : List (UInt16 × DecodedElement)} {entries : List (String × γ)}
    (hSame : List.Forall₂ (fun pair entry => pool.utf8 pair.1 = .ok entry.1 ∧
      related pair.2 entry.2) pairs entries) :
    ∃ named, resolveNames pool pairs = .ok named ∧
      List.Forall₂ (Paired related) named entries := by
  induction hSame with
  | nil => exact ⟨[], rfl, .nil⟩
  | @cons pair entry rest others hPair hRest ih =>
      obtain ⟨named, hNamed, hEntries⟩ := ih
      rw [resolveNames_eq_ok_iff] at hNamed
      exact ⟨(entry.1, pair.2) :: named,
        resolveNames_eq_ok_iff.2 (.cons ⟨hPair.1, rfl⟩ hNamed), .cons ⟨rfl, hPair.2⟩ hEntries⟩

theorem exists_resolveNames_of_names {pairs : List (UInt16 × DecodedElement)}
    (hNames : ∀ pair ∈ pairs, ∃ name, pool.utf8 pair.1 = .ok name) :
    ∃ named, resolveNames pool pairs = .ok named := by
  induction pairs with
  | nil => exact ⟨[], rfl⟩
  | cons pair rest ih =>
      rw [List.forall_mem_cons] at hNames
      obtain ⟨name, hName⟩ := hNames.1
      obtain ⟨named, hNamed⟩ := ih hNames.2
      rw [resolveNames_eq_ok_iff] at hNamed
      exact ⟨(name, pair.2) :: named, resolveNames_eq_ok_iff.2 (.cons ⟨hName, rfl⟩ hNamed)⟩

theorem firstNamed?_isNone_iff {name : String} {named : List (String × DecodedElement)} :
    (firstNamed? name named).isNone = true ↔ name ∉ named.map (·.1) := by
  rw [firstNamed?, Option.isNone_map, Option.isNone_iff_eq_none, List.find?_eq_none, List.mem_map]
  constructor
  · rintro hNone ⟨entry, hMem, hName⟩
    exact hNone entry hMem (beq_iff_eq.2 hName)
  · intro hAbsent entry hMem hName
    exact hAbsent ⟨entry, hMem, beq_iff_eq.1 hName⟩

theorem firstNamed?_mem {name : String} {named : List (String × DecodedElement)}
    {value : DecodedElement} (hFound : firstNamed? name named = some value) :
    (name, value) ∈ named := by
  rcases Option.map_eq_some_iff.1 hFound with ⟨entry, hEntry, hValue⟩
  have hName := List.find?_some hEntry
  rw [beq_iff_eq] at hName
  rw [← hName, ← hValue]
  exact List.mem_of_find?_eq_some hEntry

theorem firstNamed?_of_mem {name : String} {named : List (String × DecodedElement)}
    {value : DecodedElement} (hNodup : (named.map (·.1)).Nodup) (hMem : (name, value) ∈ named) :
    firstNamed? name named = some value := by
  rw [firstNamed?, find?_name_of_mem hNodup hMem]
  rfl

/-! ### Outcomes at a path -/

private theorem allMatch_literal_iff {kind : LiteralTag} {token : String} :
    AllMatch (outcomesAt pool path node (.literal kind token)) ↔
      ∃ index, node = .literal kind index ∧ literalCheck pool kind index token = .agreed := by
  cases node with
  | literal kind' index =>
      by_cases hKind : kind = kind'
      · subst hKind
        simp [outcomesAt, Element.tag, literalOutcome]
      · simp [outcomesAt, Element.tag, hKind, Ne.symm hKind]
  | _ => simp [outcomesAt, Element.tag]

private theorem allMatch_enumConstant_iff {typeName constantName : String} :
    AllMatch (outcomesAt pool path node (.enumConstant typeName constantName)) ↔
      ∃ typeIndex constantIndex, node = .enumConstant typeIndex constantIndex ∧
        pool.utf8 typeIndex = .ok typeName ∧ pool.utf8 constantIndex = .ok constantName := by
  cases node with
  | enumConstant typeIndex constantIndex =>
      simp [outcomesAt, Element.tag, textOutcome, textCheck_eq_agreed_iff, and_assoc]
  | _ => simp [outcomesAt, Element.tag]

private theorem allMatch_classLiteral_iff {descriptor : String} :
    AllMatch (outcomesAt pool path node (.classLiteral descriptor)) ↔
      ∃ index, node = .classLiteral index ∧ pool.utf8 index = .ok descriptor := by
  cases node with
  | classLiteral index =>
      simp [outcomesAt, Element.tag, textOutcome, textCheck_eq_agreed_iff]
  | _ => simp [outcomesAt, Element.tag]

private theorem allMatch_pairOutcomes_iff {named : List (String × DecodedElement)}
    {expected : List (String × ExpectedElement)} :
    AllMatch (pairOutcomes pool path named expected) ↔
      ∀ pair ∈ expected, ∃ value, firstNamed? pair.1 named = some value ∧
        AllMatch (outcomesAt pool (memberPath path pair.1) value pair.2) := by
  induction expected with
  | nil => simp [pairOutcomes]
  | cons pair rest ih =>
      rcases pair with ⟨name, wanted⟩
      rw [pairOutcomes, AllMatch.append_iff, ih, List.forall_mem_cons]
      cases hFound : firstNamed? name named with
      | none => simp [missingOutcome]
      | some value => simp

private theorem allMatch_unexpectedOutcomes_iff {named : List (String × DecodedElement)}
    {names : List String} :
    AllMatch (unexpectedOutcomes path named names) ↔ ∀ entry ∈ named, entry.1 ∈ names := by
  constructor
  · intro hMatch entry hMem
    by_cases hName : entry.1 ∈ names
    · exact hName
    · have hOutcome := hMatch (missingOutcome path entry.1 .expected)
        (List.mem_map.2 ⟨entry, List.mem_filter.2 ⟨hMem, by simpa using hName⟩, rfl⟩)
      simp [missingOutcome] at hOutcome
  · intro hNames outcome hMem
    rcases List.mem_map.1 hMem with ⟨entry, hEntry, rfl⟩
    rcases List.mem_filter.1 hEntry with ⟨hNamed, hAbsent⟩
    simp [hNames entry hNamed] at hAbsent

private theorem allMatch_countOutcomes_iff {named : List (String × DecodedElement)}
    {names : List String} (hFound : ∀ name ∈ names, (firstNamed? name named).isSome = true)
    (hNames : ∀ entry ∈ named, entry.1 ∈ names) :
    AllMatch (countOutcomes path named names) ↔ named.length = names.length := by
  have hLacks : lacksSome named names = false := by
    rw [lacksSome, List.any_eq_false]
    intro name hMem
    rw [Option.isNone_iff_eq_none]
    exact Option.isSome_iff_ne_none.1 (hFound name hMem)
  have hUnexpected : unexpectedOutcomes path named names = [] := by
    apply unexpectedOutcomes_eq_nil
    rw [List.forall_mem_map]
    exact hNames
  by_cases hCount : named.length = names.length
  · simp [countOutcomes, hCount]
  · simp [countOutcomes, hLacks, hUnexpected, hCount]

private theorem allMatch_annotationValue_iff {typeName : String}
    {expected : List (String × ExpectedElement)} :
    AllMatch (outcomesAt pool path node (.annotationValue typeName expected)) ↔
      ∃ typeIndex pairs named, node = .annotationValue typeIndex pairs ∧
        pool.utf8 typeIndex = .ok typeName ∧ resolveNames pool pairs = .ok named ∧
        (∀ pair ∈ expected, ∃ value, firstNamed? pair.1 named = some value ∧
          AllMatch (outcomesAt pool (memberPath path pair.1) value pair.2)) ∧
        (∀ entry ∈ named, entry.1 ∈ expected.map (·.1)) ∧
        named.length = expected.length := by
  cases node with
  | annotationValue typeIndex pairs =>
      cases hNamed : resolveNames pool pairs with
      | error cause => simp [outcomesAt, Element.tag, hNamed]
      | ok named =>
          have hFound (hPairs : ∀ pair ∈ expected, ∃ value, firstNamed? pair.1 named = some value ∧
              AllMatch (outcomesAt pool (memberPath path pair.1) value pair.2)) :
              ∀ name ∈ expected.map (·.1), (firstNamed? name named).isSome = true := by
            intro name hMem
            rcases List.mem_map.1 hMem with ⟨pair, hPair, rfl⟩
            obtain ⟨value, hValue, hMatch⟩ := hPairs pair hPair
            exact Option.isSome_iff_exists.2 ⟨value, hValue⟩
          rw [outcomesAt, AllMatch.cons_iff, tagOutcome_isMatch]
          simp only [hNamed, AllMatch.cons_iff, AllMatch.append_iff, textOutcome,
            Outcome.isMatch_mk, textCheck_eq_agreed_iff, allMatch_pairOutcomes_iff,
            allMatch_unexpectedOutcomes_iff, Element.tag, true_and, and_assoc]
          constructor
          · intro hGiven
            rcases hGiven with ⟨hType, hPairs, hNames, hCount⟩
            rw [allMatch_countOutcomes_iff (hFound hPairs) hNames, List.length_map] at hCount
            exact ⟨typeIndex, pairs, named, rfl, hType, hNamed, hPairs, hNames, hCount⟩
          · intro hGiven
            rcases hGiven with ⟨typeIndex', pairs', named', hNode, hType, hNamed', hPairs, hNames,
              hCount⟩
            cases hNode
            cases hNamed.symm.trans hNamed'
            refine ⟨hType, hPairs, hNames, ?_⟩
            rw [allMatch_countOutcomes_iff (hFound hPairs) hNames, List.length_map]
            exact hCount
  | _ => simp [outcomesAt, Element.tag]

private theorem allMatch_itemOutcomes_iff {position : Nat} {items : List DecodedElement}
    {expected : List ExpectedElement} (hLength : items.length = expected.length) :
    AllMatch (itemOutcomes pool path position items expected) ↔
      ∀ index (hItem : index < items.length) (hExpected : index < expected.length),
        AllMatch (outcomesAt pool (itemPath path (position + index))
          (items.get ⟨index, hItem⟩) (expected.get ⟨index, hExpected⟩)) := by
  induction items generalizing position expected with
  | nil => simp [itemOutcomes]
  | cons item rest ih =>
      cases expected with
      | nil => cases hLength
      | cons wanted others =>
          rw [itemOutcomes, AllMatch.append_iff, ih (Nat.succ.inj hLength)]
          constructor
          · rintro ⟨hFirst, hRest⟩ index hItem hExpected
            cases index with
            | zero => exact hFirst
            | succ index =>
                rw [← Nat.succ_add_eq_add_succ]
                exact hRest index (Nat.lt_of_succ_lt_succ hItem) (Nat.lt_of_succ_lt_succ hExpected)
          · intro hAll
            refine ⟨hAll 0 (Nat.succ_pos _) (Nat.succ_pos _), fun index hItem hExpected => ?_⟩
            rw [Nat.succ_add_eq_add_succ]
            exact hAll (index + 1) (Nat.succ_lt_succ hItem) (Nat.succ_lt_succ hExpected)

private theorem allMatch_array_iff {expected : List ExpectedElement} :
    AllMatch (outcomesAt pool path node (.array expected)) ↔
      ∃ items, node = .array items ∧ items.length = expected.length ∧
        ∀ index (hItem : index < items.length) (hExpected : index < expected.length),
          AllMatch (outcomesAt pool (itemPath path index)
            (items.get ⟨index, hItem⟩) (expected.get ⟨index, hExpected⟩)) := by
  cases node with
  | array items =>
      by_cases hLength : items.length = expected.length
      · rw [outcomesAt, AllMatch.cons_iff, tagOutcome_isMatch]
        simp [Element.tag, hLength, allMatch_itemOutcomes_iff hLength]
      · simp [outcomesAt, Element.tag, hLength]
  | _ => simp [outcomesAt, Element.tag]

theorem allMatch_outcomesAt_iff (path : String) {node : DecodedElement}
    {expected : ExpectedElement} :
    AllMatch (outcomesAt pool path node expected) ↔ Accepts pool node expected := by
  suffices hPath : ∀ path path', AllMatch (outcomesAt pool path node expected) →
      AllMatch (outcomesAt pool path' node expected) from
    ⟨hPath path Outcome.rootPath, hPath Outcome.rootPath path⟩
  induction expected using Element.inductionOn generalizing node with
  | literal kind token =>
      intro path path' hMatch
      exact allMatch_literal_iff.2 (allMatch_literal_iff.1 hMatch)
  | enumConstant typeName constantName =>
      intro path path' hMatch
      exact allMatch_enumConstant_iff.2 (allMatch_enumConstant_iff.1 hMatch)
  | classLiteral descriptor =>
      intro path path' hMatch
      exact allMatch_classLiteral_iff.2 (allMatch_classLiteral_iff.1 hMatch)
  | annotationValue typeName expected ih =>
      intro path path' hMatch
      obtain ⟨typeIndex, pairs, named, hNode, hType, hNamed, hPairs, hRest⟩ :=
        allMatch_annotationValue_iff.1 hMatch
      refine allMatch_annotationValue_iff.2
        ⟨typeIndex, pairs, named, hNode, hType, hNamed, fun pair hPair => ?_, hRest⟩
      obtain ⟨value, hValue, hValueMatch⟩ := hPairs pair hPair
      exact ⟨value, hValue, ih pair hPair _ _ hValueMatch⟩
  | array expected ih =>
      intro path path' hMatch
      obtain ⟨items, hNode, hLength, hItems⟩ := allMatch_array_iff.1 hMatch
      refine allMatch_array_iff.2 ⟨items, hNode, hLength, fun index hItem hExpected => ?_⟩
      exact ih _ (List.get_mem _ _) _ _ (hItems index hItem hExpected)

/-! ### What is accepted -/

theorem accepts_literal_iff {kind : LiteralTag} {token : String} :
    Accepts pool node (.literal kind token) ↔
      ∃ index, node = .literal kind index ∧ ∃ found wanted,
        Scalar.resolve pool kind index = .ok found ∧ Scalar.ofToken kind token = .ok wanted ∧
        found.agrees wanted = true := by
  rw [← allMatch_outcomesAt_iff Outcome.rootPath, allMatch_literal_iff]
  simp only [literalCheck_eq_agreed_iff]

theorem accepts_enumConstant_iff {typeName constantName : String} :
    Accepts pool node (.enumConstant typeName constantName) ↔
      ∃ typeIndex constantIndex, node = .enumConstant typeIndex constantIndex ∧
        pool.utf8 typeIndex = .ok typeName ∧ pool.utf8 constantIndex = .ok constantName :=
  allMatch_enumConstant_iff

theorem accepts_classLiteral_iff {descriptor : String} :
    Accepts pool node (.classLiteral descriptor) ↔
      ∃ index, node = .classLiteral index ∧ pool.utf8 index = .ok descriptor :=
  allMatch_classLiteral_iff

/-- An annotation is accepted if its type and all its names resolve, every expected
name has a first value that is accepted, no name is unexpected and the counts agree. -/
theorem accepts_annotationValue_iff {typeName : String}
    {expected : List (String × ExpectedElement)} :
    Accepts pool node (.annotationValue typeName expected) ↔
      ∃ typeIndex pairs named, node = .annotationValue typeIndex pairs ∧
        pool.utf8 typeIndex = .ok typeName ∧ resolveNames pool pairs = .ok named ∧
        (∀ pair ∈ expected, ∃ value, firstNamed? pair.1 named = some value ∧
          Accepts pool value pair.2) ∧
        (∀ entry ∈ named, entry.1 ∈ expected.map (·.1)) ∧
        named.length = expected.length := by
  rw [← allMatch_outcomesAt_iff Outcome.rootPath, allMatch_annotationValue_iff]
  simp only [allMatch_outcomesAt_iff]

theorem accepts_array_iff {expected : List ExpectedElement} :
    Accepts pool node (.array expected) ↔
      ∃ items, node = .array items ∧ items.length = expected.length ∧
        ∀ index (hItem : index < items.length) (hExpected : index < expected.length),
          Accepts pool (items.get ⟨index, hItem⟩) (expected.get ⟨index, hExpected⟩) := by
  rw [← allMatch_outcomesAt_iff Outcome.rootPath, allMatch_array_iff]
  simp only [allMatch_outcomesAt_iff]

theorem Accepts.tag_eq {expected : ExpectedElement} (hAccepts : Accepts pool node expected) :
    node.tag = expected.tag := by
  cases expected with
  | literal kind token =>
      obtain ⟨index, rfl, -⟩ := accepts_literal_iff.1 hAccepts
      rfl
  | enumConstant typeName constantName =>
      obtain ⟨typeIndex, constantIndex, rfl, -⟩ := accepts_enumConstant_iff.1 hAccepts
      rfl
  | classLiteral descriptor =>
      obtain ⟨index, rfl, -⟩ := accepts_classLiteral_iff.1 hAccepts
      rfl
  | annotationValue typeName expected =>
      obtain ⟨typeIndex, pairs, named, rfl, -⟩ := accepts_annotationValue_iff.1 hAccepts
      rfl
  | array expected =>
      obtain ⟨items, rfl, -⟩ := accepts_array_iff.1 hAccepts
      rfl

end Comparison

end AnnotationDefaults
