import AnnotationDefaults.Proofs.Comparison.Conformance
import AnnotationDefaults.Proofs.Comparison.Position

set_option autoImplicit false

/-!
Which comparisons a comparison goes on to make. From two annotations whose names all resolve
it goes on to the first value of each expected name, and from two arrays of one length to the
items place by place; each of these comparisons leaves its outcomes in one piece. A name that
does not resolve ends the comparison of its annotation: no other value of it is compared.
-/

namespace AnnotationDefaults.Comparison

/-- The steps lead from two values, from one pair of children to the next, to the last two. -/
inductive Along {α β : Type} (child : α → β → Step → α → β → Prop) :
    α → β → List Step → α → β → Prop
  | here (left : α) (right : β) : Along child left right [] left right
  | inside {left leftChild leftEnd : α} {right rightChild rightEnd : β} {step : Step}
      {rest : List Step} (hChild : child left right step leftChild rightChild)
      (hRest : Along child leftChild rightChild rest leftEnd rightEnd) :
      Along child left right (step :: rest) leftEnd rightEnd

/-- The comparison of two values goes on to compare the two children that the step leads to. -/
inductive ComparesChild (pool : ConstantPool) :
    DecodedElement → ExpectedElement → Step → DecodedElement → ExpectedElement → Prop
  | member {typeIndex : UInt16} {typeName name : String} {pairs : List (UInt16 × DecodedElement)}
      {named : List (String × DecodedElement)} {wanted : List (String × ExpectedElement)}
      {value : DecodedElement} {inner : ExpectedElement}
      (hNamed : resolveNames pool pairs = .ok named)
      (hValue : firstNamed? name named = some value) (hInner : (name, inner) ∈ wanted) :
      ComparesChild pool (.annotationValue typeIndex pairs) (.annotationValue typeName wanted)
        (.member name) value inner
  | item {position : Nat} {items : List DecodedElement} {wanted : List ExpectedElement}
      {value : DecodedElement} {inner : ExpectedElement} (hLength : items.length = wanted.length)
      (hValue : items[position]? = some value) (hInner : wanted[position]? = some inner) :
      ComparesChild pool (.array items) (.array wanted) (.item position) value inner

/-- The comparison of two values comes to compare the two at the end of the steps. -/
def Reaches (pool : ConstantPool) :
    DecodedElement → ExpectedElement → List Step → DecodedElement → ExpectedElement → Prop :=
  Along (ComparesChild pool)

variable {pool : ConstantPool} {path name typeName : String} {node value : DecodedElement}
  {expected inner : ExpectedElement} {step : Step} {steps : List Step} {typeIndex : UInt16}
  {pairs : List (UInt16 × DecodedElement)} {named : List (String × DecodedElement)}
  {wanted : List (String × ExpectedElement)}

/-! ### Outcomes of children -/

theorem itemOutcomes_append {start : Nat} {front items : List DecodedElement}
    {wantedFront others : List ExpectedElement} (hLength : front.length = wantedFront.length) :
    itemOutcomes pool path start (front ++ items) (wantedFront ++ others) =
      itemOutcomes pool path start front wantedFront ++
        itemOutcomes pool path (start + front.length) items others := by
  induction front generalizing wantedFront start with
  | nil =>
      rw [List.eq_nil_of_length_eq_zero hLength.symm]
      rfl
  | cons item front ih =>
      cases wantedFront with
      | nil => cases hLength
      | cons wanted wantedFront =>
          have hRest := Nat.succ.inj hLength
          rw [List.cons_append, List.cons_append, itemOutcomes, itemOutcomes, ih hRest,
            List.length_cons, List.append_assoc, Nat.add_assoc, Nat.add_comm 1]

theorem itemOutcomes_split {position : Nat} {items : List DecodedElement}
    {others : List ExpectedElement} (hValue : items[position]? = some value)
    (hInner : others[position]? = some inner) :
    itemOutcomes pool path 0 items others =
      itemOutcomes pool path 0 (items.take position) (others.take position) ++
        outcomesAt pool (itemPath path position) value inner ++
          itemOutcomes pool path (position + 1) (items.drop (position + 1))
            (others.drop (position + 1)) := by
  obtain ⟨hItem, rfl⟩ := List.getElem?_eq_some_iff.1 hValue
  obtain ⟨hOther, rfl⟩ := List.getElem?_eq_some_iff.1 hInner
  have hItemLength : (items.take position).length = position := List.length_take_of_le hItem.le
  have hOtherLength : (others.take position).length = position := List.length_take_of_le hOther.le
  have hItems : items.take position ++ items[position] :: items.drop (position + 1) = items := by
    rw [← List.drop_eq_getElem_cons hItem, List.take_append_drop]
  have hOthers :
      others.take position ++ others[position] :: others.drop (position + 1) = others := by
    rw [← List.drop_eq_getElem_cons hOther, List.take_append_drop]
  have hSplit := @itemOutcomes_append pool path 0 (items.take position)
    (items[position] :: items.drop (position + 1)) (others.take position)
    (others[position] :: others.drop (position + 1)) (hItemLength.trans hOtherLength.symm)
  rw [hItems, hOthers, hItemLength, Nat.zero_add, itemOutcomes, ← List.append_assoc] at hSplit
  exact hSplit

theorem outcomesAt_infix_of_child (path : String)
    (hChild : ComparesChild pool node expected step value inner) :
    outcomesAt pool (step.extend path) value inner <:+: outcomesAt pool path node expected := by
  cases hChild with
  | @member typeIndex typeName name pairs named wanted value inner hNamed hValue hInner =>
      have hMember : outcomesAt pool (memberPath path name) value inner =
          memberOutcomes pool path named (name, inner) := by
        simp only [memberOutcomes, hValue]
      have hMembers : memberOutcomes pool path named (name, inner) <:+:
          wanted.flatMap (memberOutcomes pool path named) :=
        List.infix_of_mem_flatten (List.mem_map_of_mem hInner)
      rw [Step.extend, hMember, outcomesAt_annotationValue hNamed]
      apply List.infix_cons
      apply List.infix_cons
      rw [List.append_assoc]
      exact hMembers.trans (List.prefix_append _ _).isInfix
  | item hLength hValue hInner =>
      rw [outcomesAt_array hLength, itemOutcomes_split hValue hInner]
      apply List.infix_cons
      apply List.infix_cons
      exact ⟨_, _, rfl⟩

theorem outcomesAt_infix_of_reaches (hReached : Reaches pool node expected steps value inner) :
    outcomesAt pool (Step.pathFrom path steps) value inner <:+:
      outcomesAt pool path node expected := by
  unfold Reaches at hReached
  induction hReached generalizing path with
  | here => exact List.infix_refl _
  | inside hChild hRest ih => exact ih.trans (outcomesAt_infix_of_child path hChild)

/-! ### Names that do not resolve -/

theorem outcomesAt_annotationValue_of_error {cause : Fault}
    (hNamed : resolveNames pool pairs = .error cause) :
    outcomesAt pool path (.annotationValue typeIndex pairs) (.annotationValue typeName wanted) =
      [tagOutcome path .annotationValue .annotationValue,
        textOutcome pool path "annotation type" typeIndex typeName,
        ⟨path, "resolve element name", .malformed (.fault cause)⟩] := by
  rw [outcomesAt]
  simp only [hNamed, Element.tag]

theorem exists_resolveNames_iff :
    (∃ named, resolveNames pool pairs = .ok named) ↔
      ∀ pair ∈ pairs, ∃ text, pool.utf8 pair.1 = .ok text := by
  constructor
  · intro hGiven pair hPair
    obtain ⟨named, hNamed⟩ := hGiven
    obtain ⟨entry, -, hName, -⟩ := exists_right_of_mem (resolveNames_eq_ok_iff.1 hNamed) hPair
    exact ⟨entry.1, hName⟩
  · exact exists_resolveNames_of_names

theorem memberPath_ne (path name : String) : memberPath path name ≠ path := by
  intro hSame
  have hLength := congrArg String.length hSame
  simp only [memberPath, String.length_append] at hLength
  have hDot : ".".length = 1 := rfl
  omega

theorem tagOutcome_mem (pool : ConstantPool) (path : String) (node : DecodedElement)
    (expected : ExpectedElement) :
    tagOutcome path expected.tag node.tag ∈ outcomesAt pool path node expected := by
  cases expected with
  | _ => exact List.mem_cons_self

theorem exists_mem_of_resolved (hNamed : resolveNames pool pairs = .ok named)
    (hInner : (name, inner) ∈ wanted) (hName : ∃ pair ∈ pairs, pool.utf8 pair.1 = .ok name) :
    ∃ found, tagOutcome (memberPath path name) inner.tag found ∈
      outcomesAt pool path (.annotationValue typeIndex pairs)
        (.annotationValue typeName wanted) := by
  obtain ⟨pair, hPair, hText⟩ := hName
  obtain ⟨entry, hEntry, hEntryName, -⟩ :=
    exists_right_of_mem (resolveNames_eq_ok_iff.1 hNamed) hPair
  have hSame : entry.1 = name := Except.ok.inj (hEntryName.symm.trans hText)
  cases hFirst : firstNamed? name named with
  | none =>
      have hAbsent := firstNamed?_isNone_iff.1 (Option.isNone_iff_eq_none.2 hFirst)
      exact absurd (hSame ▸ List.mem_map_of_mem hEntry) hAbsent
  | some value =>
      have hChild : ComparesChild pool (.annotationValue typeIndex pairs)
          (.annotationValue typeName wanted) (.member name) value inner :=
        .member hNamed hFirst hInner
      have hInfix := outcomesAt_infix_of_child path hChild
      exact ⟨value.tag, hInfix.subset (tagOutcome_mem pool _ value inner)⟩

/-- An annotation that a comparison reaches has its outcomes in the record. Among them is the
comparison of a value under an expected name that the annotation has exactly if all of the
annotation's names resolve: a single one that does not resolve hides every such comparison. -/
theorem member_compared_iff_names_resolve (pool : ConstantPool) (node : DecodedElement)
    (expected : ExpectedElement) (steps : List Step) (typeIndex : UInt16)
    (pairs : List (UInt16 × DecodedElement)) (typeName : String)
    (wanted : List (String × ExpectedElement)) (name : String) (inner : ExpectedElement)
    (hReached : Reaches pool node expected steps (.annotationValue typeIndex pairs)
      (.annotationValue typeName wanted))
    (hInner : (name, inner) ∈ wanted) (hName : ∃ pair ∈ pairs, pool.utf8 pair.1 = .ok name) :
    let path := Step.pathFrom Outcome.rootPath steps
    let recorded :=
      outcomesAt pool path (.annotationValue typeIndex pairs) (.annotationValue typeName wanted)
    recorded <:+: outcomes pool node expected ∧
      ((∃ found, tagOutcome (memberPath path name) inner.tag found ∈ recorded) ↔
        ∀ pair ∈ pairs, ∃ text, pool.utf8 pair.1 = .ok text) := by
  intro path recorded
  constructor
  · exact outcomesAt_infix_of_reaches hReached
  · rw [← exists_resolveNames_iff]
    constructor
    · intro hRecorded
      obtain ⟨found, hMem⟩ := hRecorded
      cases hNamed : resolveNames pool pairs with
      | ok named => exact ⟨named, rfl⟩
      | error cause =>
          -- What is left are outcomes of the annotation itself, at another path.
          have hNot := memberPath_ne path name
          simp only [recorded, outcomesAt_annotationValue_of_error hNamed, List.mem_cons,
            List.not_mem_nil, tagOutcome, textOutcome, Outcome.mk.injEq, hNot, false_and,
            or_self] at hMem
    · intro hResolved
      obtain ⟨named, hNamed⟩ := hResolved
      exact exists_mem_of_resolved hNamed hInner hName

/-- An annotation inside an array: the second name does not resolve, so the first value, which
differs from what is expected, is not compared. -/
theorem member_hidden_by_unresolved_name :
    let pairs : List (UInt16 × DecodedElement) := [(2, .literal .int 4), (9, .literal .int 5)]
    let wanted : List (String × ExpectedElement) := [("a", .literal .int "7")]
    let node : DecodedElement := .array [.annotationValue 1 pairs]
    let expected : ExpectedElement := .array [.annotationValue "LA;" wanted]
    Reaches samplePool node expected [.item 0] (.annotationValue 1 pairs)
        (.annotationValue "LA;" wanted) ∧
      (∃ pair ∈ pairs, samplePool.utf8 pair.1 = .ok "a") ∧
      ¬ ∃ found, tagOutcome "default[0].a" (.literal .int) found ∈
        outcomesAt samplePool "default[0]" (.annotationValue 1 pairs)
          (.annotationValue "LA;" wanted) := by
  intro pairs wanted node expected
  have hReached : Reaches samplePool node expected [.item 0] (.annotationValue 1 pairs)
      (.annotationValue "LA;" wanted) :=
    .inside (.item rfl rfl rfl) (.here _ _)
  have hName : ∃ pair ∈ pairs, samplePool.utf8 pair.1 = .ok "a" :=
    ⟨_, List.mem_cons_self, rfl⟩
  have hCompared := (member_compared_iff_names_resolve _ _ _ _ _ _ _ _ "a" (.literal .int "7")
    hReached List.mem_cons_self hName).2
  refine ⟨hReached, hName, ?_⟩
  intro hRecorded
  have hResolve := hCompared.1 hRecorded
  obtain ⟨text, hText⟩ := hResolve (9, .literal .int 5) (by simp [pairs])
  cases hText

end AnnotationDefaults.Comparison
