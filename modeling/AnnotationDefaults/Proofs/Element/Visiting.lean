import AnnotationDefaults.Proofs.Element.Fields
import Mathlib.Data.List.Forall2

set_option autoImplicit false

/-!
What a conversion of all leaves calls its function on. The function may keep a state and may
fail. A program visits some leaves if it calls the function on just these, one after the other,
and stops at the first failure with that failure; such programs can be put one after the other,
so by induction on the value the conversion visits its leaves. They stand in the order of the
fields in the bytes that the value was decoded from.
-/

namespace AnnotationDefaults.Element

variable {α β γ δ ε σ : Type}

/-! ### Leaves and shapes -/

def leaves (value : Element α) : List (LeafRole × α) := Field.leaves value.fields

def pairLeaves (pair : α × Element α) : List (LeafRole × α) :=
  (.pairName, pair.1) :: pair.2.leaves

theorem leaves_annotationValue (typeName : α) (pairs : List (α × Element α)) :
    (annotationValue typeName pairs).leaves =
      (.annotationType, typeName) :: pairs.flatMap pairLeaves := by
  have hPairs : (pairsFields pairs).filterMap Field.leaf? = pairs.flatMap pairLeaves := by
    rw [pairsFields_eq_flatMap, List.filterMap_flatMap]
    rfl
  rw [← hPairs]
  rfl

theorem leaves_array (items : List (Element α)) : (array items).leaves = items.flatMap leaves := by
  have hItems : (itemsFields items).filterMap Field.leaf? = items.flatMap leaves := by
    rw [itemsFields_eq_flatMap, List.filterMap_flatMap]
    rfl
  rw [← hItems]
  rfl

/-- Two values that differ in their leaves at most: the same kinds of values in the same places,
the same literal tags, and as many named values and items. -/
inductive SameShape : Element α → Element β → Prop
  | literal {kind : LiteralTag} {left : α} {right : β} :
      SameShape (.literal kind left) (.literal kind right)
  | enumConstant {leftType leftName : α} {rightType rightName : β} :
      SameShape (.enumConstant leftType leftName) (.enumConstant rightType rightName)
  | classLiteral {left : α} {right : β} : SameShape (.classLiteral left) (.classLiteral right)
  | annotationValue {leftType : α} {rightType : β} {left : List (α × Element α)}
      {right : List (β × Element β)}
      (hValues : List.Forall₂ (fun pair other => SameShape pair.2 other.2) left right) :
      SameShape (.annotationValue leftType left) (.annotationValue rightType right)
  | array {left : List (Element α)} {right : List (Element β)}
      (hItems : List.Forall₂ SameShape left right) : SameShape (.array left) (.array right)

private theorem pairsSize_eq {left : List (α × Element α)} {right : List (β × Element β)}
    (hSizes : ∀ pair ∈ left, ∀ other : Element β, SameShape pair.2 other →
      pair.2.encodedSize = other.encodedSize)
    (hValues : List.Forall₂ (fun pair other => SameShape pair.2 other.2) left right) :
    pairsSize left = pairsSize right := by
  induction hValues with
  | nil => rfl
  | cons hFirst hRest ih =>
      rw [List.forall_mem_cons] at hSizes
      rw [pairsSize, pairsSize, hSizes.1 _ hFirst, ih hSizes.2]

private theorem itemsSize_eq {left : List (Element α)} {right : List (Element β)}
    (hSizes : ∀ item ∈ left, ∀ other : Element β, SameShape item other →
      item.encodedSize = other.encodedSize)
    (hItems : List.Forall₂ SameShape left right) : itemsSize left = itemsSize right := by
  induction hItems with
  | nil => rfl
  | cons hFirst hRest ih =>
      rw [List.forall_mem_cons] at hSizes
      rw [itemsSize, itemsSize, hSizes.1 _ hFirst, ih hSizes.2]

theorem SameShape.encodedSize_eq {left : Element α} {right : Element β}
    (hSame : SameShape left right) : left.encodedSize = right.encodedSize := by
  induction left using inductionOn generalizing right with
  | literal kind value =>
      cases hSame
      rfl
  | enumConstant typeName constantName =>
      cases hSame
      rfl
  | classLiteral descriptor =>
      cases hSame
      rfl
  | annotationValue typeName pairs ih =>
      cases hSame with
      | annotationValue hValues =>
          rw [encodedSize, encodedSize, pairsSize_eq (fun pair hPair _ => ih pair hPair) hValues]
  | array items ih =>
      cases hSame with
      | array hItems =>
          rw [encodedSize, encodedSize, itemsSize_eq (fun item hItem _ => ih item hItem) hItems]

/-! ### Calls one after the other -/

section Calls

variable (convert : LeafRole → α → EStateM ε σ β)

/-- Called on these leaves one after the other the function gives these answers, each noted
with the role of its leaf. -/
inductive Answered : σ → List (LeafRole × α) → List (LeafRole × β) → σ → Prop
  | nil {state : σ} : Answered state [] [] state
  | cons {state between after : σ} {role : LeafRole} {leaf : α} {answer : β}
      {rest : List (LeafRole × α)} {answers : List (LeafRole × β)}
      (hCall : (convert role leaf).run state = .ok answer between)
      (hRest : Answered between rest answers after) :
      Answered state ((role, leaf) :: rest) ((role, answer) :: answers) after

/-- Called on the leaves `visited` one after the other the function comes to a failure: it answers
the leaves `called` up to the last of them and fails on that one. -/
inductive Stops : σ → (visited called : List (LeafRole × α)) → ε → σ → Prop
  | here {state after : σ} {role : LeafRole} {leaf : α} {cause : ε} {rest : List (LeafRole × α)}
      (hCall : (convert role leaf).run state = .error cause after) :
      Stops state ((role, leaf) :: rest) [(role, leaf)] cause after
  | there {state between after : σ} {role : LeafRole} {leaf : α} {answer : β} {cause : ε}
      {rest called : List (LeafRole × α)}
      (hCall : (convert role leaf).run state = .ok answer between)
      (hRest : Stops between rest called cause after) :
      Stops state ((role, leaf) :: rest) ((role, leaf) :: called) cause after

def recording (role : LeafRole) (leaf : α) : EStateM ε (σ × List (LeafRole × α)) β :=
  fun (state, called) =>
    match (convert role leaf).run state with
    | .ok answer after => .ok answer (after, called ++ [(role, leaf)])
    | .error cause after => .error cause (after, called ++ [(role, leaf)])

def passed (value : Element α) (state : σ) : List (LeafRole × α) :=
  match (traverse (recording convert) value).run (state, []) with
  | .ok _ (_, called) => called
  | .error _ (_, called) => called

end Calls

variable {convert : LeafRole → α → EStateM ε σ β} {state after : σ}
  {first second visited called : List (LeafRole × α)} {answers : List (LeafRole × β)} {cause : ε}

theorem Answered.of_append (hAnswered : Answered convert state (first ++ second) answers after) :
    ∃ answersFirst between answersSecond, Answered convert state first answersFirst between ∧
      Answered convert between second answersSecond after ∧
      answers = answersFirst ++ answersSecond := by
  induction first generalizing state answers with
  | nil => exact ⟨[], state, answers, .nil, hAnswered, rfl⟩
  | cons head rest ih =>
      cases hAnswered with
      | cons hCall hRest =>
          obtain ⟨others, between, answersSecond, hFirst, hSecond, rfl⟩ := ih hRest
          exact ⟨_ :: others, between, answersSecond, .cons hCall hFirst, hSecond, rfl⟩

theorem Stops.of_append (hStops : Stops convert state (first ++ second) called cause after) :
    Stops convert state first called cause after ∨
      ∃ answers between calledSecond, Answered convert state first answers between ∧
        Stops convert between second calledSecond cause after := by
  induction first generalizing state called with
  | nil => exact Or.inr ⟨[], state, called, .nil, hStops⟩
  | cons head rest ih =>
      cases hStops with
      | here hCall => exact Or.inl (.here hCall)
      | there hCall hRest =>
          rcases ih hRest with hFirst | hSecond
          · exact Or.inl (.there hCall hFirst)
          · obtain ⟨answers, between, calledSecond, hFirst, hSecond⟩ := hSecond
            exact Or.inr ⟨_ :: answers, between, calledSecond, .cons hCall hFirst, hSecond⟩

theorem answered_or_stops (convert : LeafRole → α → EStateM ε σ β) (state : σ)
    (visited : List (LeafRole × α)) :
    (∃ answers after, Answered convert state visited answers after) ∨
      ∃ called cause after, Stops convert state visited called cause after := by
  induction visited generalizing state with
  | nil => exact Or.inl ⟨[], state, .nil⟩
  | cons head rest ih =>
      rcases head with ⟨role, leaf⟩
      cases hCall : (convert role leaf).run state with
      | error cause after => exact Or.inr ⟨_, cause, after, .here hCall⟩
      | ok answer between =>
          rcases ih between with hAnswered | hStops
          · obtain ⟨answers, after, hRest⟩ := hAnswered
            exact Or.inl ⟨_, after, .cons hCall hRest⟩
          · obtain ⟨called, cause, after, hRest⟩ := hStops
            exact Or.inr ⟨_, cause, after, .there hCall hRest⟩

theorem Stops.called_isPrefix (hStops : Stops convert state visited called cause after) :
    called <+: visited := by
  induction hStops with
  | here hCall => exact List.prefix_append _ _
  | there hCall hRest ih => exact List.cons_prefix_cons.2 ⟨rfl, ih⟩

/-! ### What is recorded -/

private theorem recording_of_ok {role : LeafRole} {leaf : α} {answer : β}
    (hCall : (convert role leaf).run state = .ok answer after) :
    (recording convert role leaf).run (state, called) =
      .ok answer (after, called ++ [(role, leaf)]) := by
  rw [EStateM.run, recording, hCall]

private theorem recording_of_error {role : LeafRole} {leaf : α}
    (hCall : (convert role leaf).run state = .error cause after) :
    (recording convert role leaf).run (state, called) =
      .error cause (after, called ++ [(role, leaf)]) := by
  rw [EStateM.run, recording, hCall]

theorem Answered.recording (hAnswered : Answered convert state visited answers after)
    (before : List (LeafRole × α)) :
    Answered (recording convert) (state, before) visited answers (after, before ++ visited) := by
  induction hAnswered generalizing before with
  | nil =>
      rw [List.append_nil]
      exact .nil
  | @cons state between after role leaf answer rest answers hCall hRest ih =>
      have hOthers := ih (before ++ [(role, leaf)])
      rw [List.append_assoc, List.singleton_append] at hOthers
      exact .cons (recording_of_ok hCall) hOthers

theorem Stops.recording (hStops : Stops convert state visited called cause after)
    (before : List (LeafRole × α)) :
    Stops (recording convert) (state, before) visited called cause (after, before ++ called) := by
  induction hStops generalizing before with
  | here hCall => exact .here (recording_of_error hCall)
  | @there state between after role leaf answer cause rest called hCall hRest ih =>
      have hOthers := ih (before ++ [(role, leaf)])
      rw [List.append_assoc, List.singleton_append] at hOthers
      exact .there (recording_of_ok hCall) hOthers

/-! ### Programs that visit leaves -/

/-- The program calls the function on these leaves one after the other and does nothing else:
it stops at the first failure, and otherwise its result fits the answers. -/
structure Visits (convert : LeafRole → α → EStateM ε σ β) (visited : List (LeafRole × α))
    (program : EStateM ε σ γ) (fits : List (LeafRole × β) → γ → Prop) : Prop where
  answered : ∀ {state after answers}, Answered convert state visited answers after →
    ∃ result, program.run state = .ok result after ∧ fits answers result
  stops : ∀ {state after called cause}, Stops convert state visited called cause after →
    program.run state = .error cause after

namespace Visits

private theorem run_bind_of_ok {program : EStateM ε σ γ} {next : γ → EStateM ε σ δ} {result : γ}
    (hRun : program.run state = .ok result after) :
    (program >>= next).run state = (next result).run after := by
  rw [EStateM.run_bind, hRun]

private theorem run_bind_of_error {program : EStateM ε σ γ} {next : γ → EStateM ε σ δ}
    (hRun : program.run state = .error cause after) :
    (program >>= next).run state = .error cause after := by
  rw [EStateM.run_bind, hRun]

theorem pure {result : γ} {fits : List (LeafRole × β) → γ → Prop} (hFits : fits [] result) :
    Visits convert [] (Pure.pure result) fits where
  answered := by
    intro state after answers hAnswered
    cases hAnswered
    exact ⟨result, rfl, hFits⟩
  stops := by
    intro state after called cause hStops
    cases hStops

theorem call (role : LeafRole) (leaf : α) :
    Visits convert [(role, leaf)] (convert role leaf)
      fun answers answer => answers = [(role, answer)] where
  answered := by
    intro state after answers hAnswered
    cases hAnswered with
    | cons hCall hRest =>
        cases hRest
        exact ⟨_, hCall, rfl⟩
  stops := by
    intro state after called cause hStops
    cases hStops with
    | here hCall => exact hCall
    | there hCall hRest => cases hRest

theorem bind {program : EStateM ε σ γ} {next : γ → EStateM ε σ δ}
    {fitsFirst : List (LeafRole × β) → γ → Prop} {fits : List (LeafRole × β) → δ → Prop}
    (hFirst : Visits convert first program fitsFirst)
    (hNext : ∀ answers result, fitsFirst answers result →
      Visits convert second (next result) fun others => fits (answers ++ others)) :
    Visits convert (first ++ second) (program >>= next) fits where
  answered := by
    intro state after answers hAnswered
    obtain ⟨answersFirst, between, others, hBefore, hBehind, rfl⟩ := hAnswered.of_append
    obtain ⟨result, hRun, hFits⟩ := hFirst.answered hBefore
    rw [run_bind_of_ok hRun]
    exact (hNext answersFirst result hFits).answered hBehind
  stops := by
    intro state after called cause hStops
    rcases hStops.of_append with hBefore | hBehind
    · exact run_bind_of_error (hFirst.stops hBefore)
    · obtain ⟨answers, between, calledSecond, hBefore, hBehind⟩ := hBehind
      obtain ⟨result, hRun, hFits⟩ := hFirst.answered hBefore
      rw [run_bind_of_ok hRun]
      exact (hNext answers result hFits).stops hBehind

end Visits

/-! ### The conversion of a value -/

def Refills (value : Element α) (answers : List (LeafRole × β)) (result : Element β) : Prop :=
  SameShape value result ∧ result.leaves = answers

private theorem visits_traversePairs {pairs : List (α × Element α)}
    (hValues : ∀ pair ∈ pairs,
      Visits convert pair.2.leaves (traverse convert pair.2) (Refills pair.2)) :
    Visits convert (pairs.flatMap pairLeaves) (traversePairs convert pairs) fun answers others =>
      List.Forall₂ (fun pair other => SameShape pair.2 other.2) pairs others ∧
        others.flatMap pairLeaves = answers := by
  induction pairs with
  | nil =>
      rw [traversePairs]
      exact .pure ⟨.nil, rfl⟩
  | cons pair rest ih =>
      rcases pair with ⟨name, value⟩
      rw [List.forall_mem_cons] at hValues
      -- The empty list at the end stands for the result, which is put together without a call.
      have hLeaves : ((name, value) :: rest).flatMap pairLeaves =
          [(.pairName, name)] ++ (value.leaves ++ (rest.flatMap pairLeaves ++ [])) := by
        rw [List.append_nil, List.flatMap_cons, pairLeaves]
        rfl
      rw [traversePairs, hLeaves]
      refine (Visits.call .pairName name).bind fun nameAnswers name' hName => ?_
      refine hValues.1.bind fun valueAnswers value' hValue => ?_
      refine (ih hValues.2).bind fun restAnswers others hOthers => ?_
      subst hName
      obtain ⟨hShape, rfl⟩ := hValue
      obtain ⟨hShapes, rfl⟩ := hOthers
      refine .pure ⟨.cons hShape hShapes, ?_⟩
      rw [List.append_nil, List.flatMap_cons, pairLeaves]
      rfl

private theorem visits_traverseItems {items : List (Element α)}
    (hItems : ∀ item ∈ items, Visits convert item.leaves (traverse convert item) (Refills item)) :
    Visits convert (items.flatMap leaves) (traverseItems convert items) fun answers others =>
      List.Forall₂ SameShape items others ∧ others.flatMap leaves = answers := by
  induction items with
  | nil =>
      rw [traverseItems]
      exact .pure ⟨.nil, rfl⟩
  | cons item rest ih =>
      rw [List.forall_mem_cons] at hItems
      have hLeaves : (item :: rest).flatMap leaves =
          item.leaves ++ (rest.flatMap leaves ++ []) := by
        rw [List.append_nil, List.flatMap_cons]
      rw [traverseItems, hLeaves]
      refine hItems.1.bind fun itemAnswers item' hItem => ?_
      refine (ih hItems.2).bind fun restAnswers others hOthers => ?_
      obtain ⟨hShape, rfl⟩ := hItem
      obtain ⟨hShapes, rfl⟩ := hOthers
      refine .pure ⟨.cons hShape hShapes, ?_⟩
      rw [List.append_nil, List.flatMap_cons]

theorem visits_traverse (convert : LeafRole → α → EStateM ε σ β) (value : Element α) :
    Visits convert value.leaves (traverse convert value) (Refills value) := by
  induction value using inductionOn with
  | literal kind value =>
      rw [traverse]
      refine (Visits.call (.literal kind) value).bind fun answers answer hAnswer => ?_
      subst hAnswer
      exact .pure ⟨.literal, rfl⟩
  | enumConstant typeName constantName =>
      rw [traverse]
      refine (Visits.call .enumType typeName).bind fun answers answer hAnswer => ?_
      refine (Visits.call .enumConstant constantName).bind fun others other hOther => ?_
      subst hAnswer hOther
      exact .pure ⟨.enumConstant, rfl⟩
  | classLiteral descriptor =>
      rw [traverse]
      refine (Visits.call .classDescriptor descriptor).bind fun answers answer hAnswer => ?_
      subst hAnswer
      exact .pure ⟨.classLiteral, rfl⟩
  | annotationValue typeName pairs ih =>
      have hLeaves : (annotationValue typeName pairs).leaves =
          [(.annotationType, typeName)] ++ (pairs.flatMap pairLeaves ++ []) := by
        rw [List.append_nil, leaves_annotationValue]
        rfl
      rw [traverse, hLeaves]
      refine (Visits.call .annotationType typeName).bind fun answers answer hAnswer => ?_
      refine (visits_traversePairs ih).bind fun others converted hConverted => ?_
      subst hAnswer
      obtain ⟨hShapes, rfl⟩ := hConverted
      refine .pure ⟨.annotationValue hShapes, ?_⟩
      rw [List.append_nil, leaves_annotationValue]
      rfl
  | array items ih =>
      rw [traverse, leaves_array, ← List.append_nil (items.flatMap leaves)]
      refine (visits_traverseItems ih).bind fun answers converted hConverted => ?_
      obtain ⟨hShapes, rfl⟩ := hConverted
      refine .pure ⟨.array hShapes, ?_⟩
      rw [List.append_nil, leaves_array]

theorem passed_of_answered {value : Element α}
    (hAnswered : Answered convert state value.leaves answers after) :
    passed convert value state = value.leaves := by
  obtain ⟨result, hRun, -⟩ :=
    (visits_traverse (recording convert) value).answered (hAnswered.recording [])
  rw [passed, hRun]
  exact List.nil_append _

theorem passed_of_stops {value : Element α}
    (hStops : Stops convert state value.leaves called cause after) :
    passed convert value state = called := by
  have hRun := (visits_traverse (recording convert) value).stops (hStops.recording [])
  rw [passed, hRun]
  exact List.nil_append _

theorem passed_isPrefix (convert : LeafRole → α → EStateM ε σ β) (value : Element α) (state : σ) :
    passed convert value state <+: value.leaves := by
  rcases answered_or_stops convert state value.leaves with hAnswered | hStops
  · obtain ⟨answers, after, hAnswered⟩ := hAnswered
    rw [passed_of_answered hAnswered]
  · obtain ⟨called, cause, after, hStops⟩ := hStops
    rw [passed_of_stops hStops]
    exact hStops.called_isPrefix

/-! ### Decoded values -/

/-- The bytes that a value was decoded from can be cut into fields in one way, and a conversion
of the value calls its function on the leaves among these fields in their order, each once and in
the role that its place gives it. If the function fails on one of them, it was called on the
leaves up to that one and its failure is the result; if it answers all, the result has the same
shape and size with the answers as its leaves. -/
theorem traverse_visits_fields {bytes : List UInt8} {start : Nat} {value : DecodedElement}
    {behind : Cursor} (hDecoded : decode.run (.into bytes start) = .ok (value, behind)) :
    ∃ stop fields, behind = .into bytes stop ∧
      (bytes.extract start stop = fields.flatMap Field.bytes ∧ Field.IsValue fields) ∧
      (∀ others, bytes.extract start stop = others.flatMap Field.bytes → Field.IsValue others →
        others = fields) ∧
      ∀ {β ε σ : Type} (convert : LeafRole → UInt16 → EStateM ε σ β) (state : σ),
        passed convert value state <+: Field.leaves fields ∧
        (∀ count cause after,
          Stops convert state (Field.leaves fields) ((Field.leaves fields).take count) cause after →
          (traverse convert value).run state = .error cause after ∧
            passed convert value state = (Field.leaves fields).take count) ∧
        (∀ answers after, Answered convert state (Field.leaves fields) answers after →
          passed convert value state = Field.leaves fields ∧
            ∃ result, (traverse convert value).run state = .ok result after ∧
              SameShape value result ∧ result.encodedSize = value.encodedSize ∧
              result.leaves = answers) := by
  obtain ⟨stop, hBehind, -, hBytes, hCounts, -⟩ := (decode_into_eq_ok_iff _ _ _ _).1 hDecoded
  refine ⟨stop, value.fields, hBehind, ⟨?_, isValue_fields hCounts⟩, ?_, ?_⟩
  · rw [hBytes, flatMap_bytes_fields hCounts]
  · intro others hOthers hValue
    rw [hBytes] at hOthers
    exact fields_unique hCounts hValue hOthers.symm
  · intro β ε σ convert state
    have hVisits := visits_traverse convert value
    refine ⟨passed_isPrefix convert value state, ?_, ?_⟩
    · intro count cause after hStops
      exact ⟨hVisits.stops hStops, passed_of_stops hStops⟩
    · intro answers after hAnswered
      obtain ⟨result, hRun, hShape, hLeaves⟩ := hVisits.answered hAnswered
      have hSize := hShape.encodedSize_eq.symm
      exact ⟨passed_of_answered hAnswered, result, hRun, hShape, hSize, hLeaves⟩

def twoNamedBytes : List UInt8 :=
  [0x40, 0, 1, 0, 2, 0, 2, 0x49, 0, 3, 0, 4, 0x65, 0, 5, 0, 6]

/-- A function that fails when its budget is used up, and whose answers tell what is left. -/
def withinBudget (role : LeafRole) (leaf : UInt16) : EStateM LeafRole Nat (UInt16 × Nat)
  | 0 => .error role 0
  | budget + 1 => .ok (leaf, budget) budget

/-- With a budget of three the fourth leaf is the last one; with a budget of six all leaves are
answered. -/
theorem traverse_visits_fields_within_budget :
    let value : DecodedElement := .annotationValue 1 [(2, .literal .int 3), (4, .enumConstant 5 6)]
    let listed : List (LeafRole × UInt16) := [(.annotationType, 1), (.pairName, 2),
      (.literal .int, 3), (.pairName, 4), (.enumType, 5), (.enumConstant, 6)]
    decode.run (.into twoNamedBytes 0) = .ok (value, .into twoNamedBytes 17) ∧
      ((traverse withinBudget value).run 3 = .error .pairName 0 ∧
        passed withinBudget value 3 = listed.take 4) ∧
      passed withinBudget value 6 = listed ∧
      ∃ result, (traverse withinBudget value).run 6 = .ok result 0 ∧ SameShape value result ∧
        result.leaves = [(.annotationType, (1, 5)), (.pairName, (2, 4)), (.literal .int, (3, 3)),
          (.pairName, (4, 2)), (.enumType, (5, 1)), (.enumConstant, (6, 0))] := by
  intro value listed
  have hDecoded : decode.run (.into twoNamedBytes 0) = .ok (value, .into twoNamedBytes 17) := rfl
  obtain ⟨-, -, -, -, hCounts, -⟩ := (decode_into_eq_ok_iff _ _ _ _).1 hDecoded
  obtain ⟨stop, fields, hBehind, -, hUnique, hVisits⟩ := traverse_visits_fields hDecoded
  cases hBehind
  have hFields : value.fields = fields := hUnique _ rfl (isValue_fields hCounts)
  have hListed : Field.leaves fields = listed := by
    rw [← hFields]
    rfl
  rw [hListed] at hVisits
  obtain ⟨-, hStopped, -⟩ := hVisits withinBudget 3
  obtain ⟨-, -, hAnswered⟩ := hVisits withinBudget 6
  have hFour := hStopped 4 .pairName 0 (.there rfl (.there rfl (.there rfl (.here rfl))))
  obtain ⟨hPassed, result, hRun, hShape, -, hLeaves⟩ := hAnswered _ 0
    (.cons rfl (.cons rfl (.cons rfl (.cons rfl (.cons rfl (.cons rfl .nil))))))
  exact ⟨hDecoded, hFour, hPassed, result, hRun, hShape, hLeaves⟩

end AnnotationDefaults.Element
