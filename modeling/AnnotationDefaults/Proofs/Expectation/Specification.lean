import AnnotationDefaults.Expectation.Document
import AnnotationDefaults.Proofs.Element.Correspondence
import AnnotationDefaults.Proofs.Element.Traversal
import AnnotationDefaults.Proofs.Json.Building

set_option autoImplicit false

/-!
Specifications written as JSON and read back. The written form keeps every token's
kind, so reading gives the same specification as long as the form nests within the
reader's limit. The specification of an expected value compiles to that value, and its
form nests as deep as the value's shape says.
-/

namespace AnnotationDefaults

/-! ### Compiling what an expected value is written as -/

namespace Spec

private theorem compilePairs_tokensOfPairs {pairs : List (String × ExpectedElement)}
    (hPairs : ∀ pair ∈ pairs, (ofElement pair.2).compile = .ok pair.2) (tag : Char) :
    compilePairs tag (tokensOfPairs pairs) = .ok pairs := by
  induction pairs with
  | nil => rfl
  | cons pair rest ih =>
      rcases pair with ⟨name, value⟩
      rw [List.forall_mem_cons] at hPairs
      rw [tokensOfPairs, compilePairs, hPairs.1, ih hPairs.2]
      rfl

private theorem compileItems_tokensOfItems {items : List ExpectedElement}
    (hItems : ∀ item ∈ items, (ofElement item).compile = .ok item) (tag : Char) :
    compileItems tag (tokensOfItems items) = .ok items := by
  induction items with
  | nil => rfl
  | cons item rest ih =>
      rw [List.forall_mem_cons] at hItems
      rw [tokensOfItems, compileItems, hItems.1, ih hItems.2]
      rfl

theorem compile_ofElement (expected : ExpectedElement) :
    (ofElement expected).compile = .ok expected := by
  induction expected using Element.inductionOn with
  | literal kind value =>
      have hTag : Tag.ofSymbol? kind.symbol = some (.literal kind) :=
        Tag.ofSymbol?_symbol (.literal kind)
      rw [ofElement, compile, hTag]
      rfl
  | enumConstant typeName constantName => rfl
  | classLiteral descriptor => rfl
  | annotationValue typeName pairs ih =>
      rw [ofElement, compile, Tag.ofSymbol?_symbol]
      dsimp only [SpecToken.text?]
      rw [compilePairs_tokensOfPairs ih]
      rfl
  | array items ih =>
      rw [ofElement]
      unfold compile
      rw [Tag.ofSymbol?_symbol]
      dsimp only
      rw [compileItems_tokensOfItems ih]
      rfl

end Spec

/-! ### Reading what a specification is written as -/

namespace Reading

variable {ν α : Type} [DecidableEq ν] {name other : ν}

theorem field?_cons_of_ne (hOther : other ≠ name) (value : α) (rest : List (ν × α)) :
    field? name ((other, value) :: rest) = field? name rest := by
  simp [field?, hOther]

theorem field?_cons_self {rest : List (ν × α)} (hRest : field? name rest = some none) (value : α) :
    field? name ((name, value) :: rest) = some (some value) := by
  have hNone : (rest.filter fun member => member.1 = name) = [] := by
    unfold field? at hRest
    split at hRest
    · assumption
    · cases hRest
    · cases hRest
  simp [field?, hNone]

theorem field?_first (hOther : other ≠ name) (value last : α) :
    field? name [(name, value), (other, last)] = some (some value) :=
  field?_cons_self (field?_cons_of_ne hOther last []) value

theorem field?_second (hOther : other ≠ name) (first value : α) :
    field? name [(other, first), (name, value)] = some (some value) :=
  (field?_cons_of_ne hOther first _).trans (field?_cons_self rfl value)

private theorem specOfFields?_of_tokens (tag : Char) {values : List Json} {tokens : List SpecToken}
    (hTokens : (readItems values).mapM token? = some tokens) :
    specOfFields? (some (ofJson (.string tag.toString))) (some (ofJson (.array values))) =
      some (.mk tag tokens) := by
  have hTag : tagOfText? tag.toString = some tag := by
    rw [tagOfText?, Char.toString_eq_singleton, String.toList_singleton]
  rw [specOfFields?, ofJson, ofJson, Option.bind_eq_bind, Option.bind_some, Option.bind_eq_bind,
    Option.bind_some, hTag]
  dsimp only [ofItems]
  rw [hTokens]
  rfl

mutual

theorem spec_toJson : (spec : Spec) → (ofJson spec.toJson).spec = some spec
  | .mk tag values => by
      have hFields := specOfFields?_of_tokens tag (mapM_token?_tokensToJson values)
      rw [Spec.toJson, ofJson, readMembers, readMembers, readMembers, ofMembers]
      dsimp only
      rw [specOfMembers?, field?_first (by decide), field?_second (by decide)]
      exact hFields

theorem token?_tokenToJson :
    (token : SpecToken) → (ofJson (Spec.tokenToJson token)).token? = some token
  | .nested spec => by
      rw [Spec.tokenToJson, token?, spec_toJson spec]
      rfl
  | .pair name value => by
      have hValue := spec_toJson value
      rw [Spec.tokenToJson, ofJson, readMembers, readMembers, readMembers, ofMembers, token?]
      dsimp only
      -- without a tag it is no specification
      rw [specOfMembers?, field?_cons_of_ne (by decide), field?_cons_of_ne (by decide),
        pairOfMembers?, field?_first (by decide), field?_second (by decide)]
      dsimp only [Option.bind_eq_bind, Option.bind_some, ofJson]
      rw [hValue]
      rfl
  | .text content => rfl
  | .number value => rfl
  | .bool value => rfl

theorem mapM_token?_tokensToJson :
    (tokens : List SpecToken) → (readItems (Spec.tokensToJson tokens)).mapM token? = some tokens
  | [] => rfl
  | token :: rest => by
      rw [Spec.tokensToJson, readItems, List.mapM_cons, token?_tokenToJson token,
        mapM_token?_tokensToJson rest]
      rfl

end

theorem specOfFields?_toJson (tag : Char) (values : List SpecToken) :
    specOfFields? (some (ofJson (.string tag.toString)))
      (some (ofJson (.array (Spec.tokensToJson values)))) = some (.mk tag values) :=
  specOfFields?_of_tokens tag (mapM_token?_tokensToJson values)

end Reading

namespace Spec

theorem nesting_toJson (tag : Char) (values : List SpecToken) :
    (toJson (.mk tag values)).nesting = Json.nestingOfItems (tokensToJson values) + 2 := by
  simp only [toJson, Json.nesting, Json.nestingOfMembers]
  omega

private theorem readField?_ofJson (levels : Nat) (value : Json) :
    readField? levels (some (Json.Tree.ofJson value)) =
      if value.nesting ≤ levels then some (some (Reading.ofJson value)) else none := by
  rw [readField?, readPart?, Json.Tree.restored]
  split
  · rfl
  · rfl

theorem ofTree?_ofJson (spec : Spec) (levels : Nat) :
    ofTree? levels (Json.Tree.ofJson spec.toJson) =
      if spec.toJson.nesting ≤ levels then some spec else none := by
  rcases spec with ⟨tag, values⟩
  cases levels with
  | zero => rw [nesting_toJson, if_neg (by omega)]; rfl
  | succ levels =>
      have hTag : readField? levels (some (Json.Tree.ofJson (.string tag.toString))) =
          some (some (Reading.ofJson (.string tag.toString))) := readField?_ofJson levels _
      have hValues := readField?_ofJson levels (.array (tokensToJson values))
      rw [toJson, Json.Tree.ofJson, Json.Tree.ofMembers, Json.Tree.ofMembers, Json.Tree.ofMembers,
        ofTree?, if_neg (by simp), Reading.field?_first (by decide),
        Reading.field?_second (by decide)]
      simp only [Option.bind_eq_bind, Option.bind_some, Nat.add_sub_cancel, hTag, hValues]
      have hNesting := nesting_toJson tag values
      rw [toJson] at hNesting
      rw [hNesting, Json.nesting]
      by_cases hWithin : Json.nestingOfItems (tokensToJson values) + 1 ≤ levels
      · rw [if_pos hWithin, if_pos (Nat.succ_le_succ hWithin), Option.bind_some,
          Reading.specOfFields?_toJson]
      · rw [if_neg hWithin, if_neg (fun hLess => hWithin (Nat.le_of_succ_le_succ hLess)),
          Option.bind_none]

end Spec

/-! ### The shape of the form -/

namespace Element

variable {α β : Type}

mutual

/-- How many containers of a written specification lie around its innermost token. -/
def containers : Element α → Nat
  | .annotationValue _ pairs => containersOfPairs pairs + 2
  | .array items => containersOfItems items + 2
  | _ => 2

def containersOfPairs : List (α × Element α) → Nat
  | [] => 0
  | (_, value) :: rest => max (containers value + 1) (containersOfPairs rest)

def containersOfItems : List (Element α) → Nat
  | [] => 0
  | item :: rest => max (containers item) (containersOfItems rest)

end

theorem containers_traverse {ε : Type} {convert : LeafRole → α → Except ε β}
    {element : Element α} {result : Element β} (hResult : traverse convert element = .ok result) :
    result.containers = element.containers := by
  induction element using Element.inductionOn generalizing result with
  | literal kind value =>
      obtain ⟨converted, -, rfl⟩ := traverse_literal_eq_ok_iff.1 hResult
      rfl
  | enumConstant typeName constantName =>
      obtain ⟨convertedType, convertedName, -, -, rfl⟩ :=
        traverse_enumConstant_eq_ok_iff.1 hResult
      rfl
  | classLiteral descriptor =>
      obtain ⟨converted, -, rfl⟩ := traverse_classLiteral_eq_ok_iff.1 hResult
      rfl
  | annotationValue typeName pairs ih =>
      obtain ⟨convertedType, converted, -, hPairs, rfl⟩ :=
        traverse_annotationValue_eq_ok_iff.1 hResult
      clear hResult
      rw [containers, containers, Nat.add_right_cancel_iff]
      induction hPairs with
      | nil => rfl
      | cons hPair hRest ihRest =>
          rw [List.forall_mem_cons] at ih
          rw [containersOfPairs, containersOfPairs, ih.1 hPair.2, ihRest ih.2]
  | array items ih =>
      obtain ⟨converted, hItems, rfl⟩ := traverse_array_eq_ok_iff.1 hResult
      clear hResult
      rw [containers, containers, Nat.add_right_cancel_iff]
      induction hItems with
      | nil => rfl
      | cons hItem hRest ihRest =>
          rw [List.forall_mem_cons] at ih
          rw [containersOfItems, containersOfItems, ih.1 hItem, ihRest ih.2]

end Element

namespace Spec

private theorem nestingOfItems_tokensOfPairs {pairs : List (String × ExpectedElement)}
    (hPairs : ∀ pair ∈ pairs, (ofElement pair.2).toJson.nesting = pair.2.containers) :
    Json.nestingOfItems (tokensToJson (tokensOfPairs pairs)) = Element.containersOfPairs pairs := by
  induction pairs with
  | nil => rfl
  | cons pair rest ih =>
      rcases pair with ⟨name, value⟩
      rw [List.forall_mem_cons] at hPairs
      rw [tokensOfPairs, tokensToJson, Json.nestingOfItems, tokenToJson, Element.containersOfPairs,
        ih hPairs.2, ← hPairs.1]
      simp only [Json.nesting, Json.nestingOfMembers]
      omega

private theorem nestingOfItems_tokensOfItems {items : List ExpectedElement}
    (hItems : ∀ item ∈ items, (ofElement item).toJson.nesting = item.containers) :
    Json.nestingOfItems (tokensToJson (tokensOfItems items)) = Element.containersOfItems items := by
  induction items with
  | nil => rfl
  | cons item rest ih =>
      rw [List.forall_mem_cons] at hItems
      rw [tokensOfItems, tokensToJson, Json.nestingOfItems, tokenToJson, Element.containersOfItems,
        ih hItems.2, hItems.1]

theorem nesting_toJson_ofElement (expected : ExpectedElement) :
    (ofElement expected).toJson.nesting = expected.containers := by
  induction expected using Element.inductionOn with
  | literal kind value => rfl
  | enumConstant typeName constantName => rfl
  | classLiteral descriptor => rfl
  | annotationValue typeName pairs ih =>
      have hType : (tokenToJson (.text typeName)).nesting = 0 := rfl
      rw [ofElement, nesting_toJson, tokensToJson, Json.nestingOfItems,
        nestingOfItems_tokensOfPairs ih, hType, Nat.zero_max, Element.containers]
  | array items ih =>
      rw [ofElement, nesting_toJson, nestingOfItems_tokensOfItems ih, Element.containers]

private theorem plain_mk {tag : Char} {values : List SpecToken}
    (hTokens : ∀ item ∈ tokensToJson values, item.Plain) : (toJson (.mk tag values)).Plain := by
  rw [toJson]
  apply Json.Plain.object
  rw [List.forall_mem_cons, List.forall_mem_singleton]
  exact ⟨.string, .array hTokens⟩

theorem plain_toJson_ofElement (expected : ExpectedElement) :
    (ofElement expected).toJson.Plain := by
  induction expected using Element.inductionOn with
  | literal kind value =>
      apply plain_mk
      rw [tokensToJson, tokensToJson, List.forall_mem_singleton]
      exact .string
  | enumConstant typeName constantName =>
      apply plain_mk
      rw [tokensToJson, tokensToJson, tokensToJson, List.forall_mem_cons,
        List.forall_mem_singleton]
      exact ⟨.string, .string⟩
  | classLiteral descriptor =>
      apply plain_mk
      rw [tokensToJson, tokensToJson, List.forall_mem_singleton]
      exact .string
  | annotationValue typeName pairs ih =>
      apply plain_mk
      rw [tokensToJson, List.forall_mem_cons]
      refine ⟨.string, ?_⟩
      induction pairs with
      | nil =>
          intro item hMem
          cases hMem
      | cons pair rest ihRest =>
          rcases pair with ⟨name, value⟩
          rw [List.forall_mem_cons] at ih
          rw [tokensOfPairs, tokensToJson, List.forall_mem_cons]
          refine ⟨.object ?_, ihRest ih.2⟩
          rw [List.forall_mem_cons, List.forall_mem_singleton]
          exact ⟨.string, ih.1⟩
  | array items ih =>
      apply plain_mk
      induction items with
      | nil =>
          intro item hMem
          cases hMem
      | cons item rest ihRest =>
          rw [List.forall_mem_cons] at ih
          rw [tokensOfItems, tokensToJson, List.forall_mem_cons]
          exact ⟨ih.1, ihRest ih.2⟩

end Spec

end AnnotationDefaults
