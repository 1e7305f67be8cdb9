import AnnotationDefaults.Proofs.Comparison.Paths

set_option autoImplicit false

/-!
Tag checks and the positions that they are made at. A comparison begins with the tags of the two
values, so its tag checks follow the values of the expectation in their order; what it skips is
missing from them, and nothing is checked twice. If no name holds a mark of a path and no
annotation repeats a name, their paths tell them apart.
-/

namespace AnnotationDefaults

/-! ### Values and their positions -/

def Step.before {α : Type} (step : Step) (entry : List Step × α) : List Step × α :=
  (step :: entry.1, entry.2)

namespace ExpectedElement

mutual

/-- The values of an expectation, each with its position and before those inside it. -/
def located : ExpectedElement → List (List Step × ExpectedElement)
  | .literal kind token => [([], .literal kind token)]
  | .enumConstant typeName constantName => [([], .enumConstant typeName constantName)]
  | .classLiteral descriptor => [([], .classLiteral descriptor)]
  | .annotationValue typeName pairs =>
      ([], .annotationValue typeName pairs) :: locatedInPairs pairs
  | .array items => ([], .array items) :: locatedInItems 0 items

def locatedInPairs : List (String × ExpectedElement) → List (List Step × ExpectedElement)
  | [] => []
  | (name, value) :: rest =>
      (located value).map (Step.before (.member name)) ++ locatedInPairs rest

def locatedInItems (position : Nat) :
    List ExpectedElement → List (List Step × ExpectedElement)
  | [] => []
  | item :: rest =>
      (located item).map (Step.before (.item position)) ++ locatedInItems (position + 1) rest

end

theorem mem_locatedInPairs_iff {pairs : List (String × ExpectedElement)}
    {entry : List Step × ExpectedElement} :
    entry ∈ locatedInPairs pairs ↔
      ∃ pair ∈ pairs, ∃ inner ∈ pair.2.located, Step.before (.member pair.1) inner = entry := by
  induction pairs with
  | nil => simp [locatedInPairs]
  | cons pair rest ih => simp [locatedInPairs, ih]

theorem mem_locatedInItems_iff {position : Nat} {items : List ExpectedElement}
    {entry : List Step × ExpectedElement} :
    entry ∈ locatedInItems position items ↔
      ∃ (offset : Nat) (item : ExpectedElement), items[offset]? = some item ∧
        ∃ inner ∈ item.located, Step.before (.item (position + offset)) inner = entry := by
  induction items generalizing position with
  | nil => simp [locatedInItems]
  | cons item rest ih =>
      rw [locatedInItems, List.mem_append, List.mem_map, ih]
      constructor
      · intro hGiven
        rcases hGiven with ⟨inner, hInner, hSame⟩ | ⟨offset, other, hOther, inner, hInner, hSame⟩
        · exact ⟨0, item, rfl, inner, hInner, hSame⟩
        · rw [Nat.succ_add_eq_add_succ] at hSame
          exact ⟨offset + 1, other, hOther, inner, hInner, hSame⟩
      · intro hGiven
        rcases hGiven with ⟨offset, other, hOther, inner, hInner, hSame⟩
        cases offset with
        | zero =>
            cases hOther
            exact Or.inl ⟨inner, hInner, hSame⟩
        | succ offset =>
            rw [← Nat.succ_add_eq_add_succ] at hSame
            exact Or.inr ⟨offset, other, hOther, inner, hInner, hSame⟩

theorem exists_located_eq_cons (expected : ExpectedElement) :
    ∃ inside, expected.located = ([], expected) :: inside := by
  cases expected with
  | _ =>
      rw [located]
      exact ⟨_, rfl⟩

theorem reach?_of_mem_located {expected : ExpectedElement}
    (hApart : Element.NamesApart Eq expected) {entry : List Step × ExpectedElement}
    (hMem : entry ∈ expected.located) :
    expected.reach? (· == ·) entry.1 = some entry.2 := by
  induction expected using Element.inductionOn generalizing entry with
  | annotationValue typeName pairs ih =>
      cases hApart with
      | annotationValue hNames hValues =>
          rw [located, List.mem_cons] at hMem
          rcases hMem with rfl | hMem
          · rfl
          · obtain ⟨pair, hPair, inner, hInner, rfl⟩ := mem_locatedInPairs_iff.1 hMem
            have hChild : (Element.annotationValue typeName pairs).child? (· == ·)
                (.member pair.1) = some pair.2 :=
              (child?_member_eq_some_iff (List.pairwise_map.2 hNames)).2 hPair
            rw [Step.before, Element.reach?, hChild]
            exact ih pair hPair (hValues pair hPair) hInner
  | array items ih =>
      cases hApart with
      | array hItems =>
          rw [located, List.mem_cons] at hMem
          rcases hMem with rfl | hMem
          · rfl
          · obtain ⟨offset, item, hItem, inner, hInner, rfl⟩ := mem_locatedInItems_iff.1 hMem
            have hChild : (Element.array items).child? (· == ·) (.item (0 + offset)) =
                some item := by
              rw [Nat.zero_add]
              exact hItem
            have hMember := List.mem_of_getElem? hItem
            rw [Step.before, Element.reach?, hChild]
            exact ih item hMember (hItems item hMember) hInner
  | _ =>
      rw [located, List.mem_singleton] at hMem
      rw [hMem]
      rfl

private theorem nodup_before_append {step : Step}
    {first second : List (List Step × ExpectedElement)} (hFirst : (first.map (·.1)).Nodup)
    (hSecond : (second.map (·.1)).Nodup)
    (hApart : ∀ entry ∈ second, ∀ rest, entry.1 ≠ step :: rest) :
    ((first.map step.before ++ second).map (·.1)).Nodup := by
  have hSteps : (first.map step.before).map (·.1) = (first.map (·.1)).map (step :: ·) := by
    rw [List.map_map, List.map_map]
    rfl
  rw [List.map_append, hSteps]
  apply (hFirst.map (List.cons_injective)).append hSecond
  intro steps hUnder hOther
  obtain ⟨rest, -, rfl⟩ := List.mem_map.1 hUnder
  obtain ⟨entry, hEntry, hSame⟩ := List.mem_map.1 hOther
  exact hApart entry hEntry rest hSame

private theorem nodup_locatedInPairs {pairs : List (String × ExpectedElement)}
    (hNames : pairs.Pairwise fun first second => ¬ first.1 = second.1)
    (hValues : ∀ pair ∈ pairs, (pair.2.located.map (·.1)).Nodup) :
    ((locatedInPairs pairs).map (·.1)).Nodup := by
  induction hNames with
  | nil => exact List.nodup_nil
  | @cons pair rest hName hRest ih =>
      rw [List.forall_mem_cons] at hValues
      rw [locatedInPairs]
      apply nodup_before_append hValues.1 (ih hValues.2)
      intro entry hEntry steps hSteps
      obtain ⟨other, hOther, inner, -, rfl⟩ := mem_locatedInPairs_iff.1 hEntry
      have hSame : other.1 = pair.1 := Step.member.inj (List.cons.inj hSteps).1
      exact hName other hOther hSame.symm

private theorem nodup_locatedInItems {position : Nat} {items : List ExpectedElement}
    (hItems : ∀ item ∈ items, (item.located.map (·.1)).Nodup) :
    ((locatedInItems position items).map (·.1)).Nodup := by
  induction items generalizing position with
  | nil => exact List.nodup_nil
  | cons item rest ih =>
      rw [List.forall_mem_cons] at hItems
      rw [locatedInItems]
      apply nodup_before_append hItems.1 (ih hItems.2)
      intro entry hEntry steps hSteps
      obtain ⟨offset, other, -, inner, -, rfl⟩ := mem_locatedInItems_iff.1 hEntry
      have hSame : position + 1 + offset = position := Step.item.inj (List.cons.inj hSteps).1
      omega

theorem nodup_located {expected : ExpectedElement} (hApart : Element.NamesApart Eq expected) :
    (expected.located.map (·.1)).Nodup := by
  induction expected using Element.inductionOn with
  | annotationValue typeName pairs ih =>
      cases hApart with
      | annotationValue hNames hValues =>
          rw [located, List.map_cons, List.nodup_cons]
          constructor
          · intro hMem
            obtain ⟨entry, hEntry, hSame⟩ := List.mem_map.1 hMem
            obtain ⟨pair, -, inner, -, rfl⟩ := mem_locatedInPairs_iff.1 hEntry
            cases hSame
          · exact nodup_locatedInPairs hNames fun pair hPair => ih pair hPair (hValues pair hPair)
  | array items ih =>
      cases hApart with
      | array hItems =>
          rw [located, List.map_cons, List.nodup_cons]
          constructor
          · intro hMem
            obtain ⟨entry, hEntry, hSame⟩ := List.mem_map.1 hMem
            obtain ⟨offset, item, -, inner, -, rfl⟩ := mem_locatedInItems_iff.1 hEntry
            cases hSame
          · exact nodup_locatedInItems fun item hItem => ih item hItem (hItems item hItem)
  | _ => exact List.nodup_singleton _

end ExpectedElement

/-! ### Tag checks -/

theorem Tag.mem_all (tag : Tag) : tag ∈ Tag.all := by
  cases tag with
  | literal kind => cases kind <;> decide
  | _ => decide

namespace Outcome

/-- The outcome says whether the tags of two values agree. -/
def checksTag (outcome : Outcome) : Bool :=
  Tag.all.any fun tag => outcome.description == "check tag " ++ tag.label

theorem checksTag_iff {outcome : Outcome} :
    outcome.checksTag = true ↔ ∃ tag : Tag, outcome.description = "check tag " ++ tag.label := by
  simp [checksTag, Tag.mem_all]

end Outcome

namespace Comparison

variable {pool : ConstantPool} {path : String} {node : DecodedElement}
  {expected : ExpectedElement}

/-- The paths and descriptions of the tag checks. -/
def tagChecks (outcomes : List Outcome) : List (String × String) :=
  (outcomes.filter Outcome.checksTag).map fun outcome => (outcome.path, outcome.description)

def tagRecord (path : String) (entry : List Step × ExpectedElement) : String × String :=
  (Step.pathFrom path entry.1, "check tag " ++ entry.2.tag.label)

theorem tagChecks_append (first second : List Outcome) :
    tagChecks (first ++ second) = tagChecks first ++ tagChecks second := by
  rw [tagChecks, List.filter_append, List.map_append]
  rfl

theorem tagChecks_cons_tagOutcome (wanted found : Tag) (rest : List Outcome) :
    tagChecks (tagOutcome path wanted found :: rest) =
      (path, "check tag " ++ wanted.label) :: tagChecks rest := by
  have hChecks : (tagOutcome path wanted found).checksTag = true :=
    Outcome.checksTag_iff.2 ⟨wanted, rfl⟩
  rw [tagChecks, List.filter_cons_of_pos hChecks]
  rfl

theorem literalOutcome_checksTag {kind : LiteralTag} {index : UInt16} {token : String} :
    (literalOutcome pool path kind index token).checksTag = false := by
  cases kind <;> rfl

theorem missingOutcome_checksTag {name : String} {side : Side} :
    (missingOutcome path name side).checksTag = false := by
  rw [Bool.eq_false_iff, Ne, Outcome.checksTag_iff]
  intro hGiven
  obtain ⟨tag, hSame⟩ := hGiven
  have hFirst := congrArg (fun text : String => text.toList.head?) hSame
  simp [missingOutcome] at hFirst

theorem tagChecks_eq_nil {outcomes : List Outcome}
    (hOthers : ∀ outcome ∈ outcomes, outcome.checksTag = false) : tagChecks outcomes = [] := by
  rw [tagChecks, List.map_eq_nil_iff, List.filter_eq_nil_iff]
  intro outcome hMem
  rw [hOthers outcome hMem]
  exact Bool.false_ne_true

theorem tagChecks_unexpectedOutcomes {named : List (String × DecodedElement)}
    {names : List String} : tagChecks (unexpectedOutcomes path named names) = [] := by
  apply tagChecks_eq_nil
  intro outcome hMem
  obtain ⟨entry, -, rfl⟩ := List.mem_map.1 hMem
  exact missingOutcome_checksTag

theorem tagChecks_countOutcomes {named : List (String × DecodedElement)} {names : List String} :
    tagChecks (countOutcomes path named names) = [] := by
  unfold countOutcomes
  split_ifs
  · rfl
  · rfl

/-! ### Tag checks in the order of the expectation -/

theorem map_tagRecord_before (step : Step) (entries : List (List Step × ExpectedElement)) :
    (entries.map step.before).map (tagRecord path) =
      entries.map (tagRecord (step.extend path)) := by
  rw [List.map_map]
  rfl

private theorem tagChecks_members_sublist {named : List (String × DecodedElement)}
    {members : List (String × ExpectedElement)}
    (hValues : ∀ pair ∈ members, ∀ path value,
      (tagChecks (outcomesAt pool path value pair.2)).Sublist
        (pair.2.located.map (tagRecord path))) :
    (tagChecks (members.flatMap (memberOutcomes pool path named))).Sublist
      ((ExpectedElement.locatedInPairs members).map (tagRecord path)) := by
  induction members with
  | nil => exact List.nil_sublist _
  | cons pair rest ih =>
      rw [List.forall_mem_cons] at hValues
      rw [List.flatMap_cons, tagChecks_append, ExpectedElement.locatedInPairs, List.map_append,
        map_tagRecord_before]
      apply List.Sublist.append _ (ih hValues.2)
      unfold memberOutcomes
      split
      · exact hValues.1 _ _
      · rw [tagChecks_eq_nil (by simp [missingOutcome_checksTag])]
        exact List.nil_sublist _

private theorem tagChecks_items_sublist {start : Nat} {items : List DecodedElement}
    {others : List ExpectedElement}
    (hItems : ∀ inner ∈ others, ∀ path value,
      (tagChecks (outcomesAt pool path value inner)).Sublist
        (inner.located.map (tagRecord path))) :
    (tagChecks (itemOutcomes pool path start items others)).Sublist
      ((ExpectedElement.locatedInItems start others).map (tagRecord path)) := by
  induction others generalizing start items with
  | nil =>
      cases items with
      | _ => exact List.nil_sublist _
  | cons inner others ih =>
      cases items with
      | nil => exact List.nil_sublist _
      | cons item items =>
          rw [List.forall_mem_cons] at hItems
          rw [itemOutcomes, tagChecks_append, ExpectedElement.locatedInItems, List.map_append,
            map_tagRecord_before]
          exact (hItems.1 _ _).append (ih hItems.2)

private theorem tagChecks_here_sublist (expected : ExpectedElement) {rest : List Outcome}
    {found : Tag} {inside : List (List Step × ExpectedElement)}
    (hLocated : expected.located = ([], expected) :: inside)
    (hRest : (tagChecks rest).Sublist (inside.map (tagRecord path))) :
    (tagChecks (tagOutcome path expected.tag found :: rest)).Sublist
      (expected.located.map (tagRecord path)) := by
  rw [tagChecks_cons_tagOutcome, hLocated, List.map_cons]
  exact hRest.cons_cons _

private theorem tagChecks_only_sublist (expected : ExpectedElement) {rest : List Outcome}
    {found : Tag} (hRest : tagChecks rest = []) :
    (tagChecks (tagOutcome path expected.tag found :: rest)).Sublist
      (expected.located.map (tagRecord path)) := by
  obtain ⟨inside, hLocated⟩ := expected.exists_located_eq_cons
  apply tagChecks_here_sublist expected hLocated
  rw [hRest]
  exact List.nil_sublist _

private theorem tagChecks_sublist_of_tag_ne (hTag : expected.tag ≠ node.tag) :
    (tagChecks (outcomesAt pool path node expected)).Sublist
      (expected.located.map (tagRecord path)) := by
  rw [outcomesAt_of_tag_ne hTag]
  exact tagChecks_only_sublist expected rfl

private theorem tagChecks_sublist_annotationValue {typeIndex : UInt16} {typeName : String}
    {pairs : List (UInt16 × DecodedElement)} {members : List (String × ExpectedElement)}
    (hValues : ∀ pair ∈ members, ∀ path value,
      (tagChecks (outcomesAt pool path value pair.2)).Sublist
        (pair.2.located.map (tagRecord path))) :
    (tagChecks (outcomesAt pool path (.annotationValue typeIndex pairs)
      (.annotationValue typeName members))).Sublist
        ((ExpectedElement.located (.annotationValue typeName members)).map (tagRecord path)) := by
  have hType : tagChecks [textOutcome pool path "annotation type" typeIndex typeName] = [] := rfl
  cases hNamed : resolveNames pool pairs with
  | error cause =>
      have hNames : tagChecks [⟨path, "resolve element name", .malformed (.fault cause)⟩] = [] :=
        rfl
      rw [outcomesAt_annotationValue_of_error hNamed]
      apply tagChecks_only_sublist (.annotationValue typeName members)
      rw [← List.singleton_append, tagChecks_append, hType, hNames, List.nil_append]
  | ok named =>
      rw [outcomesAt_annotationValue hNamed]
      apply tagChecks_here_sublist (.annotationValue typeName members)
        (by rw [ExpectedElement.located])
      rw [← List.singleton_append, tagChecks_append, hType, List.nil_append, tagChecks_append,
        tagChecks_append, tagChecks_unexpectedOutcomes, tagChecks_countOutcomes, List.append_nil,
        List.append_nil]
      exact tagChecks_members_sublist hValues

private theorem tagChecks_sublist_array {items : List DecodedElement}
    {others : List ExpectedElement}
    (hItems : ∀ inner ∈ others, ∀ path value,
      (tagChecks (outcomesAt pool path value inner)).Sublist
        (inner.located.map (tagRecord path))) :
    (tagChecks (outcomesAt pool path (.array items) (.array others))).Sublist
      ((ExpectedElement.located (.array others)).map (tagRecord path)) := by
  by_cases hLength : items.length = others.length
  · have hCheck : tagChecks [⟨path, "check array length", .agreed⟩] = [] := rfl
    rw [outcomesAt_array hLength]
    apply tagChecks_here_sublist (.array others) (by rw [ExpectedElement.located])
    rw [← List.singleton_append, tagChecks_append, hCheck, List.nil_append]
    exact tagChecks_items_sublist hItems
  · rw [outcomesAt_array_of_length_ne hLength]
    exact tagChecks_only_sublist (.array others) rfl

/-- The tag checks of a comparison are those of some of the expectation's values, each at the
path of its position, in the order of the expectation and none of them twice. -/
theorem tagChecks_sublist (pool : ConstantPool) (path : String) (node : DecodedElement)
    (expected : ExpectedElement) :
    (tagChecks (outcomesAt pool path node expected)).Sublist
      (expected.located.map (tagRecord path)) := by
  induction expected using Element.inductionOn generalizing node path with
  | literal kind token =>
      by_cases hTag : (Element.literal kind token).tag = node.tag
      · cases node with
        | literal kind' index =>
            cases hTag
            rw [outcomesAt_literal]
            apply tagChecks_only_sublist (.literal kind token)
            exact tagChecks_eq_nil (by simp [literalOutcome_checksTag])
        | _ => cases hTag
      · exact tagChecks_sublist_of_tag_ne hTag
  | enumConstant typeName constantName =>
      cases node with
      | enumConstant typeIndex constantIndex =>
          exact tagChecks_only_sublist (.enumConstant typeName constantName) rfl
      | _ => exact tagChecks_sublist_of_tag_ne (by intro hTag; cases hTag)
  | classLiteral descriptor =>
      cases node with
      | classLiteral index => exact tagChecks_only_sublist (.classLiteral descriptor) rfl
      | _ => exact tagChecks_sublist_of_tag_ne (by intro hTag; cases hTag)
  | annotationValue typeName members ih =>
      cases node with
      | annotationValue typeIndex pairs =>
          exact tagChecks_sublist_annotationValue
            fun pair hPair path value => ih pair hPair path value
      | _ => exact tagChecks_sublist_of_tag_ne (by intro hTag; cases hTag)
  | array others ih =>
      cases node with
      | array items =>
          exact tagChecks_sublist_array fun inner hInner path value => ih inner hInner path value
      | _ => exact tagChecks_sublist_of_tag_ne (by intro hTag; cases hTag)

/-! ### One path for each position -/

theorem isPlain_of_reach? {steps : List Step} {value : ExpectedElement}
    (hPlain : Element.NamesAll IsMarkFree expected)
    (hReach : expected.reach? (· == ·) steps = some value) : ∀ step ∈ steps, step.IsPlain := by
  induction steps generalizing expected with
  | nil => exact List.forall_mem_nil _
  | cons step rest ih =>
      rw [Element.reach?, Option.bind_eq_some_iff] at hReach
      obtain ⟨child, hChild, hRest⟩ := hReach
      rw [List.forall_mem_cons]
      cases hPlain with
      | annotationValue hNames hValues =>
          cases step with
          | item position => cases hChild
          | member name =>
              obtain ⟨pair, hPair, rfl⟩ := Option.map_eq_some_iff.1 hChild
              have hMem := List.mem_of_find?_eq_some hPair
              have hName := List.find?_some hPair
              rw [beq_iff_eq] at hName
              exact ⟨hName ▸ hNames pair hMem, ih (hValues pair hMem) hRest⟩
      | array hItems =>
          cases step with
          | member name => cases hChild
          | item position => exact ⟨trivial, ih (hItems child (List.mem_of_getElem? hChild)) hRest⟩
      | _ => cases hChild

theorem steps_eq_of_pathFrom_eq {first second : List Step} {value other : ExpectedElement}
    (hPlain : Element.NamesAll IsMarkFree expected)
    (hFirst : expected.reach? (· == ·) first = some value)
    (hSecond : expected.reach? (· == ·) second = some other)
    (hSame : Step.pathFrom path first = Step.pathFrom path second) : first = second :=
  Step.pathFrom_injective (isPlain_of_reach? hPlain hFirst) (isPlain_of_reach? hPlain hSecond)
    hSame

/-- The tag checks of a comparison have paths that differ from each other, and each path is that
of exactly one position of the expectation, whose value's tag is what is checked there. -/
theorem tagCheck_paths_name_positions (pool : ConstantPool) (node : DecodedElement)
    (expected : ExpectedElement) (hApart : Element.NamesApart Eq expected)
    (hPlain : Element.NamesAll IsMarkFree expected) :
    (((outcomes pool node expected).filter Outcome.checksTag).map (·.path)).Nodup ∧
      ∀ outcome ∈ outcomes pool node expected, outcome.checksTag = true →
        ∃ steps value, expected.reach? (· == ·) steps = some value ∧
          outcome.path = Step.pathFrom Outcome.rootPath steps ∧
          outcome.description = "check tag " ++ value.tag.label ∧
          ∀ others other, expected.reach? (· == ·) others = some other →
            outcome.path = Step.pathFrom Outcome.rootPath others → others = steps := by
  have hSublist := tagChecks_sublist pool Outcome.rootPath node expected
  constructor
  · have hPaths : ((outcomes pool node expected).filter Outcome.checksTag).map (·.path) =
        (tagChecks (outcomes pool node expected)).map (·.1) := by
      rw [tagChecks, List.map_map]
      rfl
    have hPositions : (expected.located.map (tagRecord Outcome.rootPath)).map (·.1) =
        (expected.located.map (·.1)).map (Step.pathFrom Outcome.rootPath) := by
      rw [List.map_map, List.map_map]
      rfl
    rw [hPaths]
    apply (hSublist.map (·.1)).nodup
    rw [hPositions]
    apply (ExpectedElement.nodup_located hApart).map_on
    intro first hFirst second hSecond hSame
    obtain ⟨entry, hEntry, rfl⟩ := List.mem_map.1 hFirst
    obtain ⟨other, hOther, rfl⟩ := List.mem_map.1 hSecond
    exact steps_eq_of_pathFrom_eq hPlain (ExpectedElement.reach?_of_mem_located hApart hEntry)
      (ExpectedElement.reach?_of_mem_located hApart hOther) hSame
  · intro outcome hMem hChecks
    have hListed : (outcome.path, outcome.description) ∈ tagChecks (outcomes pool node expected) :=
      List.mem_map_of_mem (List.mem_filter.2 ⟨hMem, hChecks⟩)
    obtain ⟨entry, hEntry, hRecord⟩ := List.mem_map.1 (hSublist.subset hListed)
    have hReach := ExpectedElement.reach?_of_mem_located hApart hEntry
    have hPath : Step.pathFrom Outcome.rootPath entry.1 = outcome.path := congrArg Prod.fst hRecord
    have hDescription := congrArg Prod.snd hRecord
    refine ⟨entry.1, entry.2, hReach, hPath.symm, hDescription.symm, ?_⟩
    intro others other hOther hSame
    exact steps_eq_of_pathFrom_eq hPlain hOther hReach (hSame.symm.trans hPath.symm)

/-- A name that looks like the end of an item's segment is checked beside the item: a value of
the annotation is missing and another one has a different tag. -/
theorem tagCheck_paths_name_positions_nested :
    let node : DecodedElement := .annotationValue 1
      [(2, .array [.literal .int 4, .literal .int 5]), (3, .literal .char 4)]
    let expected : ExpectedElement := .annotationValue "LA;"
      [("a", .array [.literal .int "1", .literal .int "1"]), ("0]", .classLiteral "V"),
        ("b", .literal .int "1")]
    let checks := (outcomes samplePool node expected).filter Outcome.checksTag
    Element.NamesApart Eq expected ∧ Element.NamesAll IsMarkFree expected ∧
      checks.map (·.path) =
        ["default", "default.a", "default.a[0]", "default.a[1]", "default.b"] ∧
      (checks.map (·.path)).Nodup := by
  intro node expected checks
  have hApart : Element.NamesApart Eq expected := by
    refine .annotationValue (by decide) ?_
    rw [List.forall_mem_cons, List.forall_mem_cons, List.forall_mem_singleton]
    refine ⟨.array ?_, .classLiteral, .literal⟩
    rw [List.forall_mem_cons, List.forall_mem_singleton]
    exact ⟨.literal, .literal⟩
  have hPlain : Element.NamesAll IsMarkFree expected := by
    refine .annotationValue (by simp [IsMarkFree, IsMark]) ?_
    rw [List.forall_mem_cons, List.forall_mem_cons, List.forall_mem_singleton]
    refine ⟨.array ?_, .classLiteral, .literal⟩
    rw [List.forall_mem_cons, List.forall_mem_singleton]
    exact ⟨.literal, .literal⟩
  have hPaths : checks.map (·.path) =
      ["default", "default.a", "default.a[0]", "default.a[1]", "default.b"] := by
    decide
  exact ⟨hApart, hPlain, hPaths,
    (tagCheck_paths_name_positions samplePool node expected hApart hPlain).1⟩

end Comparison

end AnnotationDefaults
