import AnnotationDefaults.Proofs.Comparison.Reach
import AnnotationDefaults.Proofs.Comparison.Reordering
import Mathlib.Data.List.Pairwise

set_option autoImplicit false

/-!
Subtrees and their outcomes. A decoded and an expected value at one position contribute one
block to the outcomes of the whole: what a comparison of the two alone records, under the path
of the position. Whatever stands there instead, the outcomes before and behind the block stay
the same. On the way to the position the names of annotations have to resolve and not to repeat,
on either side, and arrays have to be of equal lengths.
-/

namespace AnnotationDefaults

namespace Element

variable {α κ β : Type} {name : String} {entries : List (κ × β)} {isNamed : κ → String → Bool}
  {convert : β → β}

def convertNamed (isNamed : κ → String → Bool) (name : String) (convert : β → β)
    (entries : List (κ × β)) : List (κ × β) :=
  entries.map fun entry => if isNamed entry.1 name then (entry.1, convert entry.2) else entry

/-- The value with the child that the step leads to converted, if it has one. -/
def convertChild (isNamed : α → String → Bool) (convert : Element α → Element α) :
    Step → Element α → Element α
  | .member name, .annotationValue typeName pairs =>
      .annotationValue typeName (convertNamed isNamed name convert pairs)
  | .item position, .array items => .array (items.modify position convert)
  | _, element => element

/-- The value with a replacement at the end of the steps. -/
def replaceAt (isNamed : α → String → Bool) (element : Element α) :
    List Step → Element α → Element α
  | [], replacement => replacement
  | step :: rest, replacement =>
      element.convertChild isNamed (fun child => child.replaceAt isNamed rest replacement) step

theorem map_name_convertNamed :
    (convertNamed isNamed name convert entries).map (·.1) = entries.map (·.1) := by
  rw [convertNamed, List.map_map]
  apply List.map_congr_left
  intro entry _
  rw [Function.comp_apply]
  split_ifs
  · rfl
  · rfl

theorem convertNamed_eq_self
    (hSame : ∀ entry ∈ entries, isNamed entry.1 name = true → convert entry.2 = entry.2) :
    convertNamed isNamed name convert entries = entries := by
  have hIdentity : ∀ entry ∈ entries,
      (if isNamed entry.1 name then (entry.1, convert entry.2) else entry) = id entry := by
    intro entry hEntry
    split_ifs with hNamed
    · rw [hSame entry hEntry hNamed]
      rfl
    · rfl
  rw [convertNamed, List.map_congr_left hIdentity, List.map_id]

theorem mem_convertNamed {entry : κ × β} (hEntry : entry ∈ entries)
    (hNamed : isNamed entry.1 name = true) :
    (entry.1, convert entry.2) ∈ convertNamed isNamed name convert entries := by
  apply List.mem_map.2
  exact ⟨entry, hEntry, if_pos hNamed⟩

end Element

def Outcome.within (outer : String) (outcome : Outcome) : Outcome :=
  { outcome with path := outer ++ outcome.path }

/-- The outcome with another path in the place of the root's, which every path begins with. -/
def Outcome.movedTo (path : String) (outcome : Outcome) : Outcome :=
  { outcome with
    path := path ++ String.ofList (outcome.path.toList.drop Outcome.rootPath.length) }

theorem Outcome.movedTo_within (path : String) (outcome : Outcome) :
    (outcome.within rootPath).movedTo path = outcome.within path := by
  have hPath : (rootPath ++ outcome.path).toList.drop rootPath.length = outcome.path.toList := by
    rw [String.toList_append, ← String.length_toList, List.drop_left]
  simp only [movedTo, within, hPath, String.ofList_toList]

namespace Comparison

open Element (convertNamed)
open DecodedElement (isNamed)

variable {pool : ConstantPool} {path name typeName : String} {node value : DecodedElement}
  {expected inner : ExpectedElement} {step : Step} {steps : List Step} {typeIndex : UInt16}
  {pairs : List (UInt16 × DecodedElement)} {named : List (String × DecodedElement)}
  {wanted : List (String × ExpectedElement)}

/-! ### Paths -/

theorem unexpectedOutcomes_append {outer : String} {names : List String} :
    unexpectedOutcomes (outer ++ path) named names =
      (unexpectedOutcomes path named names).map (Outcome.within outer) := by
  rw [unexpectedOutcomes, unexpectedOutcomes, List.map_map]
  rfl

theorem countOutcomes_append {outer : String} {names : List String} :
    countOutcomes (outer ++ path) named names =
      (countOutcomes path named names).map (Outcome.within outer) := by
  have hUnexpected : (unexpectedOutcomes (outer ++ path) named names).isEmpty =
      (unexpectedOutcomes path named names).isEmpty := by
    rw [unexpectedOutcomes_append, List.isEmpty_map]
  rw [countOutcomes, countOutcomes, hUnexpected]
  split_ifs
  · rfl
  · rfl

theorem itemOutcomes_outer {outer : String} {start : Nat} {items : List DecodedElement}
    {others : List ExpectedElement}
    (hItems : ∀ inner ∈ others, ∀ value path, outcomesAt pool (outer ++ path) value inner =
      (outcomesAt pool path value inner).map (Outcome.within outer)) :
    itemOutcomes pool (outer ++ path) start items others =
      (itemOutcomes pool path start items others).map (Outcome.within outer) := by
  induction others generalizing start items with
  | nil =>
      cases items with
      | _ => rfl
  | cons inner others ih =>
      cases items with
      | nil => rfl
      | cons item items =>
          rw [List.forall_mem_cons] at hItems
          have hPath : itemPath (outer ++ path) start = outer ++ itemPath path start := by
            simp only [itemPath, String.append_assoc]
          rw [itemOutcomes, itemOutcomes, hPath, hItems.1, ih hItems.2, List.map_append]

/-- Paths are relative: a comparison at a longer path records the same under that path. -/
theorem outcomesAt_outer (pool : ConstantPool) (outer path : String) (node : DecodedElement)
    (expected : ExpectedElement) :
    outcomesAt pool (outer ++ path) node expected =
      (outcomesAt pool path node expected).map (Outcome.within outer) := by
  induction expected using Element.inductionOn generalizing node path with
  | literal kind token =>
      cases node with
      | literal kind' index =>
          simp only [outcomesAt]
          split_ifs
          · rfl
          · rfl
      | _ => rfl
  | enumConstant typeName constantName =>
      cases node with
      | _ => rfl
  | classLiteral descriptor =>
      cases node with
      | _ => rfl
  | annotationValue typeName wanted ih =>
      cases node with
      | annotationValue typeIndex pairs =>
          cases hNamed : resolveNames pool pairs with
          | error cause =>
              rw [outcomesAt_annotationValue_of_error hNamed,
                outcomesAt_annotationValue_of_error hNamed]
              rfl
          | ok named =>
              have hMembers : wanted.flatMap (memberOutcomes pool (outer ++ path) named) =
                  (wanted.flatMap (memberOutcomes pool path named)).map (Outcome.within outer) := by
                rw [List.map_flatMap]
                apply List.flatMap_congr
                intro pair hPair
                have hPath :
                    memberPath (outer ++ path) pair.1 = outer ++ memberPath path pair.1 := by
                  simp only [memberPath, String.append_assoc]
                cases hFirst : firstNamed? pair.1 named with
                | none =>
                    simp only [memberOutcomes, hFirst]
                    rfl
                | some value => simp only [memberOutcomes, hFirst, hPath, ih pair hPair]
              rw [outcomesAt_annotationValue hNamed, outcomesAt_annotationValue hNamed, hMembers,
                unexpectedOutcomes_append, countOutcomes_append, List.map_cons, List.map_cons,
                List.map_append, List.map_append]
              rfl
      | _ => rfl
  | array others ih =>
      cases node with
      | array items =>
          by_cases hLength : items.length = others.length
          · rw [outcomesAt_array hLength, outcomesAt_array hLength, List.map_cons, List.map_cons,
              itemOutcomes_outer fun inner hInner value path => ih inner hInner path value]
            rfl
          · rw [outcomesAt_array_of_length_ne hLength, outcomesAt_array_of_length_ne hLength]
            rfl
      | _ => rfl

theorem outcomesAt_eq_map_within (pool : ConstantPool) (path : String) (node : DecodedElement)
    (expected : ExpectedElement) :
    outcomesAt pool path node expected =
      (outcomesAt pool "" node expected).map (Outcome.within path) := by
  rw [← outcomesAt_outer, String.append_empty]

theorem outcomesAt_eq_map_movedTo (path : String) (node : DecodedElement)
    (expected : ExpectedElement) :
    outcomesAt pool path node expected =
      (outcomes pool node expected).map (Outcome.movedTo path) := by
  have hMoved : Outcome.movedTo path ∘ Outcome.within Outcome.rootPath = Outcome.within path := by
    funext outcome
    exact Outcome.movedTo_within path outcome
  rw [outcomes, outcomesAt_eq_map_within pool Outcome.rootPath, List.map_map, hMoved,
    ← outcomesAt_eq_map_within]

/-! ### Annotations with one value converted -/

section Converted

variable {convert : DecodedElement → DecodedElement}

theorem resolveNames_convertNamed (hNamed : resolveNames pool pairs = .ok named) :
    resolveNames pool (convertNamed (isNamed pool) name convert pairs) =
      .ok (convertNamed (· == ·) name convert named) := by
  rw [resolveNames_eq_ok_iff] at hNamed ⊢
  unfold convertNamed
  rw [List.forall₂_map_left_iff, List.forall₂_map_right_iff]
  apply hNamed.imp
  intro pair entry hPair
  obtain ⟨hName, hValue⟩ := hPair
  have hSame : isNamed pool pair.1 name = (entry.1 == name) := by
    simp only [isNamed, hName, Except.ok.injEq, beq_eq_decide]
  simp only [hSame]
  split_ifs
  · exact ⟨hName, congrArg convert hValue⟩
  · exact ⟨hName, hValue⟩

theorem firstNamed?_convertNamed_self :
    firstNamed? name (convertNamed (· == ·) name convert named) =
      (firstNamed? name named).map convert := by
  induction named with
  | nil => rfl
  | cons entry rest ih =>
      rw [convertNamed, List.map_cons, ← convertNamed, firstNamed?_cons, firstNamed?_cons, ih]
      by_cases hName : entry.1 = name
      · simp [hName]
      · simp [hName]

theorem firstNamed?_convertNamed_of_ne {other : String} (hOther : other ≠ name) :
    firstNamed? other (convertNamed (· == ·) name convert named) = firstNamed? other named := by
  induction named with
  | nil => rfl
  | cons entry rest ih =>
      rw [convertNamed, List.map_cons, ← convertNamed, firstNamed?_cons, firstNamed?_cons, ih]
      by_cases hName : entry.1 = name
      · simp [hName, hOther.symm]
      · simp [hName]

theorem flatMap_memberOutcomes_convertNamed {convertWanted : ExpectedElement → ExpectedElement}
    (hNames : name ∉ wanted.map (·.1)) :
    (convertNamed (· == ·) name convertWanted wanted).flatMap
        (memberOutcomes pool path (convertNamed (· == ·) name convert named)) =
      wanted.flatMap (memberOutcomes pool path named) := by
  have hOther : ∀ pair ∈ wanted, pair.1 ≠ name := by
    intro pair hPair hSame
    exact hNames (hSame ▸ List.mem_map_of_mem hPair)
  have hKept : convertNamed (· == ·) name convertWanted wanted = wanted := by
    apply Element.convertNamed_eq_self
    intro pair hPair hSame
    exact absurd (beq_iff_eq.1 hSame) (hOther pair hPair)
  rw [hKept]
  apply List.flatMap_congr
  intro pair hPair
  simp only [memberOutcomes, firstNamed?_convertNamed_of_ne (hOther pair hPair)]

theorem memberOutcomes_convertNamed_self {convertWanted : ExpectedElement → ExpectedElement}
    (hFirst : firstNamed? name named = some value) :
    memberOutcomes pool path (convertNamed (· == ·) name convert named)
        (name, convertWanted inner) =
      outcomesAt pool (memberPath path name) (convert value) (convertWanted inner) := by
  have hConverted : firstNamed? name (convertNamed (· == ·) name convert named) =
      some (convert value) := by
    rw [firstNamed?_convertNamed_self, hFirst, Option.map_some]
  simp only [memberOutcomes, hConverted]

theorem outcomesAt_annotationValue_converted {front back : List (String × ExpectedElement)}
    {convertWanted : ExpectedElement → ExpectedElement}
    (hNamed : resolveNames pool pairs = .ok named) (hFirst : firstNamed? name named = some value)
    (hFront : name ∉ front.map (·.1)) (hBack : name ∉ back.map (·.1)) :
    let names := (front ++ (name, inner) :: back).map (·.1)
    outcomesAt pool path
        (.annotationValue typeIndex (convertNamed (isNamed pool) name convert pairs))
        (.annotationValue typeName
          (convertNamed (· == ·) name convertWanted (front ++ (name, inner) :: back))) =
      tagOutcome path .annotationValue .annotationValue ::
        textOutcome pool path "annotation type" typeIndex typeName ::
          front.flatMap (memberOutcomes pool path named) ++
        outcomesAt pool (memberPath path name) (convert value) (convertWanted inner) ++
        (back.flatMap (memberOutcomes pool path named) ++ unexpectedOutcomes path named names ++
          countOutcomes path named names) := by
  intro names
  have hSplit : convertNamed (· == ·) name convertWanted (front ++ (name, inner) :: back) =
      convertNamed (· == ·) name convertWanted front ++
        (name, convertWanted inner) :: convertNamed (· == ·) name convertWanted back := by
    simp [convertNamed]
  have hUnexpected :
      unexpectedOutcomes path (convertNamed (· == ·) name convert named) names =
        unexpectedOutcomes path named names := by
    rw [unexpectedOutcomes_eq_map, unexpectedOutcomes_eq_map, Element.map_name_convertNamed]
  have hCount : countOutcomes path (convertNamed (· == ·) name convert named) names =
      countOutcomes path named names :=
    countOutcomes_perm (.of_eq Element.map_name_convertNamed) (.refl _)
  rw [outcomesAt_annotationValue (resolveNames_convertNamed hNamed),
    Element.map_name_convertNamed, hUnexpected, hCount, hSplit, List.flatMap_append,
    List.flatMap_cons, flatMap_memberOutcomes_convertNamed hFront,
    flatMap_memberOutcomes_convertNamed hBack, memberOutcomes_convertNamed_self hFirst]
  simp only [List.cons_append, List.append_assoc]

end Converted

/-! ### Arrays with one item converted -/

theorem outcomesAt_array_converted {position : Nat} {items : List DecodedElement}
    {others : List ExpectedElement} {convert : DecodedElement → DecodedElement}
    {convertWanted : ExpectedElement → ExpectedElement} (hLength : items.length = others.length)
    (hValue : items[position]? = some value) (hInner : others[position]? = some inner) :
    outcomesAt pool path (.array (items.modify position convert))
        (.array (others.modify position convertWanted)) =
      tagOutcome path .array .array :: ⟨path, "check array length", .agreed⟩ ::
          itemOutcomes pool path 0 (items.take position) (others.take position) ++
        outcomesAt pool (itemPath path position) (convert value) (convertWanted inner) ++
        itemOutcomes pool path (position + 1) (items.drop (position + 1))
          (others.drop (position + 1)) := by
  have hConverted : (items.modify position convert)[position]? = some (convert value) := by
    rw [List.getElem?_modify_eq, hValue]
    rfl
  have hConvertedInner :
      (others.modify position convertWanted)[position]? = some (convertWanted inner) := by
    rw [List.getElem?_modify_eq, hInner]
    rfl
  have hSameLength :
      (items.modify position convert).length = (others.modify position convertWanted).length := by
    rw [List.length_modify, List.length_modify, hLength]
  rw [outcomesAt_array hSameLength, itemOutcomes_split hConverted hConvertedInner,
    List.take_modify, List.take_modify, List.modify_eq_self (List.length_take_le _ _),
    List.modify_eq_self (List.length_take_le _ _),
    List.drop_modify_of_lt _ _ _ _ (Nat.lt_add_one position),
    List.drop_modify_of_lt _ _ _ _ (Nat.lt_add_one position)]
  simp only [List.cons_append, List.append_assoc]

/-! ### Children that both values have -/

/-- Both values have the child that the step leads to: under a name, in annotations whose names
all resolve and do not repeat, or in a place of arrays of one length. -/
inductive SharesChild (pool : ConstantPool) :
    DecodedElement → ExpectedElement → Step → DecodedElement → ExpectedElement → Prop
  | member {typeIndex index : UInt16} {typeName name : String}
      {pairs : List (UInt16 × DecodedElement)} {wanted : List (String × ExpectedElement)}
      {value : DecodedElement} {inner : ExpectedElement}
      (hResolve : ∀ pair ∈ pairs, ∃ text, pool.utf8 pair.1 = .ok text)
      (hApart : pairs.Pairwise fun first second => ¬ pool.SameText first.1 second.1)
      (hWanted : (wanted.map (·.1)).Nodup) (hName : pool.utf8 index = .ok name)
      (hValue : (index, value) ∈ pairs) (hInner : (name, inner) ∈ wanted) :
      SharesChild pool (.annotationValue typeIndex pairs) (.annotationValue typeName wanted)
        (.member name) value inner
  | item {position : Nat} {items : List DecodedElement} {wanted : List ExpectedElement}
      {value : DecodedElement} {inner : ExpectedElement} (hLength : items.length = wanted.length)
      (hValue : items[position]? = some value) (hInner : wanted[position]? = some inner) :
      SharesChild pool (.array items) (.array wanted) (.item position) value inner

/-- Before and behind the outcomes of the children nothing depends on the children. -/
theorem exists_frame_of_child (path : String)
    (hChild : SharesChild pool node expected step value inner) :
    ∃ before after, ∀ convert convertWanted,
      outcomesAt pool path (node.convertChild (isNamed pool) convert step)
          (expected.convertChild (· == ·) convertWanted step) =
        before ++ outcomesAt pool (step.extend path) (convert value) (convertWanted inner) ++
          after := by
  cases hChild with
  | @member typeIndex index typeName name pairs wanted value inner hResolve hApart hWanted hName
      hValue hInner =>
      obtain ⟨named, hNamed⟩ := exists_resolveNames_of_names hResolve
      obtain ⟨entry, hEntry, hEntryName, hEntryValue⟩ :=
        exists_right_of_mem (resolveNames_eq_ok_iff.1 hNamed) hValue
      have hSame : entry = (name, value) :=
        Prod.ext (Except.ok.inj (hEntryName.symm.trans hName)) hEntryValue.symm
      have hFirst : firstNamed? name named = some value :=
        firstNamed?_of_mem ((namesApart_iff_nodup hNamed).1 hApart) (hSame ▸ hEntry)
      obtain ⟨front, back, rfl⟩ := List.append_of_mem hInner
      rw [List.map_append, List.map_cons, List.nodup_middle, List.nodup_cons, List.mem_append,
        not_or] at hWanted
      exact ⟨_, _, fun convert convertWanted =>
        outcomesAt_annotationValue_converted hNamed hFirst hWanted.1.1 hWanted.1.2⟩
  | item hLength hValue hInner =>
      exact ⟨_, _, fun convert convertWanted =>
        outcomesAt_array_converted hLength hValue hInner⟩

/-- Along shared children the outcomes of the last two are one block. -/
theorem exists_frame_along (path : String)
    (hShared : Along (SharesChild pool) node expected steps value inner) :
    ∃ before after, ∀ value' inner',
      outcomesAt pool path (node.replaceAt (isNamed pool) steps value')
          (expected.replaceAt (· == ·) steps inner') =
        before ++ outcomesAt pool (Step.pathFrom path steps) value' inner' ++ after := by
  -- Each step puts its frame around the frame of the steps behind it.
  induction hShared generalizing path with
  | here => exact ⟨[], [], fun value' inner' => (List.append_nil _).symm⟩
  | @inside node child last expected childExpected lastExpected step rest hChild hRest ih =>
      obtain ⟨before, after, hOuter⟩ := exists_frame_of_child path hChild
      obtain ⟨innerBefore, innerAfter, hInner⟩ := ih (step.extend path)
      refine ⟨before ++ innerBefore, innerAfter ++ after, ?_⟩
      intro value' inner'
      have hPath : Step.pathFrom path (step :: rest) = Step.pathFrom (step.extend path) rest := rfl
      rw [Element.replaceAt, Element.replaceAt, hOuter, hInner, hPath]
      simp only [List.append_assoc]

/-! ### Replacements -/

theorem modify_eq_of_getElem? {α : Type} {items : List α} {position : Nat} {item : α}
    {convert : α → α} (hItem : items[position]? = some item) (hSame : convert item = item) :
    items.modify position convert = items := by
  apply List.ext_getElem?
  intro place
  rw [List.getElem?_modify]
  by_cases hPlace : position = place
  · subst hPlace
    simp [hItem, hSame]
  · simp [hPlace]

theorem sameText_symm {first second : UInt16} (hSame : pool.SameText first second) :
    pool.SameText second first := by
  obtain ⟨text, hFirst, hSecond⟩ := hSame
  exact ⟨text, hSecond, hFirst⟩

theorem convertChild_eq_self {convert : DecodedElement → DecodedElement}
    (hChild : SharesChild pool node expected step value inner) (hSame : convert value = value) :
    node.convertChild (isNamed pool) convert step = node := by
  cases hChild with
  | @member typeIndex index typeName name pairs wanted value inner hResolve hApart hWanted hName
      hValue hInner =>
      apply congrArg (Element.annotationValue typeIndex)
      apply Element.convertNamed_eq_self
      intro pair hPair hNamed
      have hText := of_decide_eq_true hNamed
      -- Another pair of the name would have the text of this one.
      have hOnly : pair = (index, value) := by
        by_contra hOther
        have hSymmetric : Std.Symm fun first second : UInt16 × DecodedElement =>
            ¬ pool.SameText first.1 second.1 :=
          ⟨fun first second hFirst hSecond => hFirst (sameText_symm hSecond)⟩
        exact hApart.forall hPair hValue hOther ⟨name, hText, hName⟩
      rw [hOnly, hSame]
  | item hLength hValue hInner =>
      exact congrArg Element.array (modify_eq_of_getElem? hValue hSame)

theorem convertChild_expected_eq_self {convertWanted : ExpectedElement → ExpectedElement}
    (hChild : SharesChild pool node expected step value inner)
    (hSame : convertWanted inner = inner) :
    expected.convertChild (· == ·) convertWanted step = expected := by
  cases hChild with
  | @member typeIndex index typeName name pairs wanted value inner hResolve hApart hWanted hName
      hValue hInner =>
      apply congrArg (Element.annotationValue typeName)
      apply Element.convertNamed_eq_self
      intro pair hPair hNamed
      have hOnly : pair = (name, inner) :=
        List.inj_on_of_nodup_map hWanted hPair hInner (beq_iff_eq.1 hNamed)
      rw [hOnly, hSame]
  | item hLength hValue hInner =>
      exact congrArg Element.array (modify_eq_of_getElem? hInner hSame)

theorem replaceAt_eq_self (hShared : Along (SharesChild pool) node expected steps value inner) :
    node.replaceAt (isNamed pool) steps value = node ∧
      expected.replaceAt (· == ·) steps inner = expected := by
  induction hShared with
  | here => exact ⟨rfl, rfl⟩
  | inside hChild hRest ih =>
      exact ⟨convertChild_eq_self hChild ih.1, convertChild_expected_eq_self hChild ih.2⟩

theorem SharesChild.converted {convert : DecodedElement → DecodedElement}
    {convertWanted : ExpectedElement → ExpectedElement}
    (hChild : SharesChild pool node expected step value inner) :
    SharesChild pool (node.convertChild (isNamed pool) convert step)
      (expected.convertChild (· == ·) convertWanted step) step (convert value)
      (convertWanted inner) := by
  cases hChild with
  | @member typeIndex index typeName name pairs wanted value inner hResolve hApart hWanted hName
      hValue hInner =>
      have hIndices : (convertNamed (isNamed pool) name convert pairs).map (·.1) =
          pairs.map (·.1) := Element.map_name_convertNamed
      have hNames : (convertNamed (· == ·) name convertWanted wanted).map (·.1) =
          wanted.map (·.1) := Element.map_name_convertNamed
      refine .member ?_ ?_ ?_ hName ?_ ?_
      · have hEach : ∀ first ∈ (convertNamed (isNamed pool) name convert pairs).map (·.1),
            ∃ text, pool.utf8 first = .ok text := by
          rw [hIndices, List.forall_mem_map]
          exact hResolve
        intro pair hPair
        exact hEach pair.1 (List.mem_map_of_mem hPair)
      · have hEach : ((convertNamed (isNamed pool) name convert pairs).map (·.1)).Pairwise
            fun first second => ¬ pool.SameText first second := by
          rw [hIndices, List.pairwise_map]
          exact hApart
        exact List.pairwise_map.1 hEach
      · rw [hNames]
        exact hWanted
      · exact Element.mem_convertNamed hValue (decide_eq_true hName)
      · exact Element.mem_convertNamed hInner (beq_self_eq_true name)
  | item hLength hValue hInner =>
      refine .item ?_ ?_ ?_
      · rw [List.length_modify, List.length_modify, hLength]
      · rw [List.getElem?_modify_eq, hValue]
        rfl
      · rw [List.getElem?_modify_eq, hInner]
        rfl

theorem along_replaceAt (value' : DecodedElement) (inner' : ExpectedElement)
    (hShared : Along (SharesChild pool) node expected steps value inner) :
    Along (SharesChild pool) (node.replaceAt (isNamed pool) steps value')
      (expected.replaceAt (· == ·) steps inner') steps value' inner' := by
  induction hShared with
  | here => exact .here value' inner'
  | inside hChild hRest ih => exact .inside hChild.converted ih

/-- The outcomes of the values at one position of both sides are one block: those of comparing
the two alone, with the path of the position in the place of the root's. With any other values
at the position, however they fail, the block is theirs and the outcomes around it stay. -/
theorem outcomes_contained (pool : ConstantPool) (node : DecodedElement)
    (expected : ExpectedElement) (steps : List Step) (value : DecodedElement)
    (inner : ExpectedElement)
    (hShared : Along (SharesChild pool) node expected steps value inner) :
    let path := Step.pathFrom Outcome.rootPath steps
    ∃ before after,
      outcomes pool node expected =
          before ++ (outcomes pool value inner).map (Outcome.movedTo path) ++ after ∧
        ∀ value' inner',
          let replaced := node.replaceAt (isNamed pool) steps value'
          let wanted := expected.replaceAt (· == ·) steps inner'
          Along (SharesChild pool) replaced wanted steps value' inner' ∧
            outcomes pool replaced wanted =
              before ++ (outcomes pool value' inner').map (Outcome.movedTo path) ++ after := by
  intro path
  obtain ⟨before, after, hFrame⟩ := exists_frame_along Outcome.rootPath hShared
  simp only [outcomesAt_eq_map_movedTo (Step.pathFrom Outcome.rootPath steps)] at hFrame
  refine ⟨before, after, ?_, ?_⟩
  · obtain ⟨hNode, hExpected⟩ := replaceAt_eq_self hShared
    have hSelf := hFrame value inner
    rw [hNode, hExpected] at hSelf
    exact hSelf
  · intro value' inner'
    exact ⟨along_replaceAt value' inner' hShared, hFrame value' inner'⟩

/-- An item inside an array inside an annotation. Where it differs from what is expected and the
value behind it does not resolve, an annotation may be put in its place. -/
theorem outcomes_contained_nested :
    let node : DecodedElement := .annotationValue 1
      [(2, .array [.literal .int 4, .literal .int 5]), (3, .literal .int 9)]
    let expected : ExpectedElement := .annotationValue "LA;"
      [("b", .literal .int "1"), ("a", .array [.literal .int "1", .literal .int "3"])]
    let steps : List Step := [.member "a", .item 1]
    Along (SharesChild samplePool) node expected steps (.literal .int 5) (.literal .int "3") ∧
      ∃ before after, ∀ value' inner',
        outcomes samplePool (node.replaceAt (isNamed samplePool) steps value')
            (expected.replaceAt (· == ·) steps inner') =
          before ++ (outcomes samplePool value' inner').map (Outcome.movedTo "default.a[1]") ++
            after := by
  intro node expected steps
  have hFirst : samplePool.utf8 2 = .ok "a" := rfl
  have hSecond : samplePool.utf8 3 = .ok "b" := rfl
  have hMember : SharesChild samplePool node expected (.member "a")
      (.array [.literal .int 4, .literal .int 5])
      (.array [.literal .int "1", .literal .int "3"]) := by
    apply SharesChild.member
    · simp [hFirst, hSecond]
    · simp [ConstantPool.SameText, hFirst, hSecond]
    · decide
    · exact hFirst
    · exact List.mem_cons_self
    · exact List.mem_cons_of_mem _ List.mem_cons_self
  have hShared : Along (SharesChild samplePool) node expected steps (.literal .int 5)
      (.literal .int "3") :=
    .inside hMember (.inside (.item rfl rfl rfl) (.here _ _))
  obtain ⟨before, after, -, hOthers⟩ := outcomes_contained _ _ _ _ _ _ hShared
  exact ⟨hShared, before, after, fun value' inner' => (hOthers value' inner').2⟩

end Comparison

end AnnotationDefaults
