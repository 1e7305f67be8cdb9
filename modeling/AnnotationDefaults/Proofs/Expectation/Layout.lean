import AnnotationDefaults.Proofs.Expectation.Specification

set_option autoImplicit false

/-!
Which specifications compile, and to what. A specification is laid out if its tokens are those
of its tag and the specifications inside it are laid out. Exactly such specifications compile,
and the expected value is written back as the same specification with text in the place of
every number and truth value.
-/

namespace AnnotationDefaults

namespace SpecToken

/-- The token stands for one text. -/
inductive IsScalar : SpecToken → Prop
  | text (content : String) : IsScalar (.text content)
  | number (value : Json.Number) : IsScalar (.number value)
  | bool (value : Bool) : IsScalar (.bool value)

end SpecToken

namespace Spec

inductive IsLaidOut : Spec → Prop
  | literal (kind : LiteralTag) {token : SpecToken} (hToken : token.IsScalar) :
      IsLaidOut (.mk kind.symbol [token])
  | classLiteral {token : SpecToken} (hToken : token.IsScalar) :
      IsLaidOut (.mk Tag.classLiteral.symbol [token])
  | enumConstant (typeName constantName : String) :
      IsLaidOut (.mk Tag.enumConstant.symbol [.text typeName, .text constantName])
  | annotationValue (typeName : String) {pairs : List (String × Spec)}
      (hPairs : ∀ pair ∈ pairs, IsLaidOut pair.2) :
      IsLaidOut (.mk Tag.annotationValue.symbol
        (.text typeName :: pairs.map fun pair => .pair pair.1 pair.2))
  | array {items : List Spec} (hItems : ∀ item ∈ items, IsLaidOut item) :
      IsLaidOut (.mk Tag.array.symbol (items.map .nested))

mutual

/-- The specification with text in the place of every number and truth value. -/
def textual : Spec → Spec
  | .mk tag values => .mk tag (textualTokens values)

def textualToken : SpecToken → SpecToken
  | .nested spec => .nested (textual spec)
  | .pair name value => .pair name (textual value)
  | .text content => .text content
  | .number value => .text value.text
  | .bool true => .text "true"
  | .bool false => .text "false"

def textualTokens : List SpecToken → List SpecToken
  | [] => []
  | token :: rest => textualToken token :: textualTokens rest

end

/-! ### Single tokens -/

theorem exists_scalarText?_iff {token : SpecToken} :
    (∃ content, token.scalarText? = some content) ↔ token.IsScalar := by
  constructor
  · intro hGiven
    obtain ⟨content, hContent⟩ := hGiven
    cases token with
    | text content => exact .text content
    | number value => exact .number value
    | bool value => exact .bool value
    | nested spec => cases hContent
    | pair name value => cases hContent
  · intro hScalar
    cases hScalar with
    | text content => exact ⟨_, rfl⟩
    | number value => exact ⟨_, rfl⟩
    | bool value =>
        cases value with
        | true => exact ⟨_, rfl⟩
        | false => exact ⟨_, rfl⟩

theorem textualToken_of_scalarText? {token : SpecToken} {content : String}
    (hContent : token.scalarText? = some content) : textualToken token = .text content := by
  cases token with
  | text found =>
      cases hContent
      rfl
  | number value =>
      cases hContent
      rfl
  | bool value =>
      cases value with
      | true =>
          cases hContent
          rfl
      | false =>
          cases hContent
          rfl
  | nested spec => cases hContent
  | pair name value => cases hContent

theorem text?_eq_some_iff {token : SpecToken} {content : String} :
    token.text? = some content ↔ token = .text content := by
  constructor
  · intro hContent
    cases token with
    | text found =>
        cases hContent
        rfl
    | _ => cases hContent
  · rintro rfl
    rfl

theorem single_eq_ok_iff {tokens : List SpecToken} {content : String} :
    SpecToken.single tokens = .ok content ↔
      ∃ token, tokens = [token] ∧ token.scalarText? = some content := by
  constructor
  · intro hSingle
    unfold SpecToken.single at hSingle
    split at hSingle
    · rename_i token
      cases hText : token.scalarText? with
      | none =>
          rw [hText] at hSingle
          cases hSingle
      | some found =>
          rw [hText] at hSingle
          cases hSingle
          exact ⟨token, rfl, hText⟩
    · cases hSingle
  · intro hGiven
    obtain ⟨token, rfl, hText⟩ := hGiven
    rw [SpecToken.single, hText]

theorem enumTexts_eq_ok_iff {tokens : List SpecToken} {typeName constantName : String} :
    SpecToken.enumTexts tokens = .ok (typeName, constantName) ↔
      tokens = [.text typeName, .text constantName] := by
  constructor
  · intro hTexts
    unfold SpecToken.enumTexts at hTexts
    split at hTexts
    · rename_i first second
      cases hFirst : first.text? with
      | none =>
          rw [hFirst] at hTexts
          cases hTexts
      | some found =>
          cases hSecond : second.text? with
          | none =>
              rw [hFirst, hSecond] at hTexts
              cases hTexts
          | some found' =>
              rw [hFirst, hSecond] at hTexts
              cases hTexts
              rw [text?_eq_some_iff.1 hFirst, text?_eq_some_iff.1 hSecond]
    · cases hTexts
  · rintro rfl
    rfl

/-! ### One level -/

variable {values : List SpecToken} {value : ExpectedElement} {tag : Char}

theorem exists_tag_of_compile {symbol : Char}
    (hCompile : compile (.mk symbol values) = .ok value) : ∃ tag : Tag, tag.symbol = symbol := by
  unfold compile at hCompile
  cases hTag : Tag.ofSymbol? symbol with
  | none =>
      rw [hTag] at hCompile
      cases hCompile
  | some tag => exact ⟨tag, Tag.symbol_of_ofSymbol? hTag⟩

theorem compile_literal_eq_ok_iff {kind : LiteralTag} :
    compile (.mk (Tag.literal kind).symbol values) = .ok value ↔
      ∃ content, SpecToken.single values = .ok content ∧ .literal kind content = value := by
  unfold compile
  rw [Tag.ofSymbol?_symbol]
  dsimp only
  cases SpecToken.single values with
  | error cause => simp
  | ok content => simp

theorem compile_classLiteral_eq_ok_iff :
    compile (.mk Tag.classLiteral.symbol values) = .ok value ↔
      ∃ content, SpecToken.single values = .ok content ∧ .classLiteral content = value := by
  unfold compile
  rw [Tag.ofSymbol?_symbol]
  dsimp only
  cases SpecToken.single values with
  | error cause => simp
  | ok content => simp

theorem compile_enumConstant_eq_ok_iff :
    compile (.mk Tag.enumConstant.symbol values) = .ok value ↔
      ∃ typeName constantName, values = [.text typeName, .text constantName] ∧
        .enumConstant typeName constantName = value := by
  simp only [← enumTexts_eq_ok_iff]
  unfold compile
  rw [Tag.ofSymbol?_symbol]
  dsimp only
  cases SpecToken.enumTexts values with
  | error cause => simp
  | ok texts => simp [Prod.ext_iff]

theorem compile_annotationValue_eq_ok_iff :
    compile (.mk Tag.annotationValue.symbol values) = .ok value ↔
      ∃ typeName rest pairs, values = .text typeName :: rest ∧
        compilePairs Tag.annotationValue.symbol rest = .ok pairs ∧
        .annotationValue typeName pairs = value := by
  unfold compile
  rw [Tag.ofSymbol?_symbol]
  dsimp only
  cases values with
  | nil => simp
  | cons first rest =>
      cases hText : first.text? with
      | none =>
          have hOther (typeName : String) : first ≠ .text typeName := by
            intro hFirst
            rw [text?_eq_some_iff.2 hFirst] at hText
            cases hText
          simp [hText, hOther]
      | some typeName =>
          rw [text?_eq_some_iff] at hText
          subst hText
          simp [SpecToken.text?, map_eq_ok_iff]

theorem compile_array_eq_ok_iff :
    compile (.mk Tag.array.symbol values) = .ok value ↔
      ∃ items, compileItems Tag.array.symbol values = .ok items ∧ .array items = value := by
  unfold compile
  rw [Tag.ofSymbol?_symbol]
  exact map_eq_ok_iff

theorem compilePairs_cons_eq_ok_iff {token : SpecToken} {rest : List SpecToken}
    {pairs : List (String × ExpectedElement)} :
    compilePairs tag (token :: rest) = .ok pairs ↔
      ∃ name spec found others, token = .pair name spec ∧ spec.compile = .ok found ∧
        compilePairs tag rest = .ok others ∧ (name, found) :: others = pairs := by
  cases token with
  | pair name spec =>
      simp only [compilePairs, bind_eq_ok_iff, pure_eq_ok_iff]
      grind
  | _ => simp [compilePairs]

theorem compileItems_cons_eq_ok_iff {token : SpecToken} {rest : List SpecToken}
    {items : List ExpectedElement} :
    compileItems tag (token :: rest) = .ok items ↔
      ∃ spec found others, token = .nested spec ∧ spec.compile = .ok found ∧
        compileItems tag rest = .ok others ∧ found :: others = items := by
  cases token with
  | nested spec =>
      simp only [compileItems, bind_eq_ok_iff, pure_eq_ok_iff]
      grind
  | _ => simp [compileItems]

/-! ### What compiles is laid out -/

theorem single_of_ok {content : String} (hSingle : SpecToken.single values = .ok content) :
    ∃ token, values = [token] ∧ token.IsScalar ∧ textualTokens values = [.text content] := by
  obtain ⟨token, rfl, hText⟩ := single_eq_ok_iff.1 hSingle
  refine ⟨token, rfl, exists_scalarText?_iff.1 ⟨content, hText⟩, ?_⟩
  rw [textualTokens, textualToken_of_scalarText? hText]
  rfl

mutual

theorem of_compile : (spec : Spec) → (value : ExpectedElement) → spec.compile = .ok value →
    spec.IsLaidOut ∧ ofElement value = spec.textual
  | .mk symbol values, value => by
      intro hCompile
      obtain ⟨tag, rfl⟩ := exists_tag_of_compile hCompile
      cases tag with
      | literal kind =>
          obtain ⟨content, hSingle, rfl⟩ := compile_literal_eq_ok_iff.1 hCompile
          obtain ⟨token, rfl, hScalar, hTextual⟩ := single_of_ok hSingle
          rw [textual, hTextual, ofElement]
          exact ⟨.literal kind hScalar, rfl⟩
      | enumConstant =>
          obtain ⟨typeName, constantName, rfl, rfl⟩ := compile_enumConstant_eq_ok_iff.1 hCompile
          exact ⟨.enumConstant typeName constantName, rfl⟩
      | classLiteral =>
          obtain ⟨content, hSingle, rfl⟩ := compile_classLiteral_eq_ok_iff.1 hCompile
          obtain ⟨token, rfl, hScalar, hTextual⟩ := single_of_ok hSingle
          rw [textual, hTextual, ofElement]
          exact ⟨.classLiteral hScalar, rfl⟩
      | annotationValue =>
          obtain ⟨typeName, rest, pairs, rfl, hPairs, rfl⟩ :=
            compile_annotationValue_eq_ok_iff.1 hCompile
          obtain ⟨named, rfl, hNamed, hTextual⟩ := of_compilePairs _ rest pairs hPairs
          rw [textual, textualTokens, ← hTextual, ofElement]
          exact ⟨.annotationValue typeName hNamed, rfl⟩
      | array =>
          obtain ⟨items, hItems, rfl⟩ := compile_array_eq_ok_iff.1 hCompile
          obtain ⟨specs, rfl, hSpecs, hTextual⟩ := of_compileItems _ values items hItems
          rw [textual, ← hTextual, ofElement]
          exact ⟨.array hSpecs, rfl⟩

theorem of_compilePairs (tag : Char) : (tokens : List SpecToken) →
    (pairs : List (String × ExpectedElement)) → compilePairs tag tokens = .ok pairs →
    ∃ named : List (String × Spec), tokens = named.map (fun pair => .pair pair.1 pair.2) ∧
      (∀ pair ∈ named, pair.2.IsLaidOut) ∧ tokensOfPairs pairs = textualTokens tokens
  | [], pairs => by
      intro hPairs
      cases hPairs
      exact ⟨[], rfl, List.forall_mem_nil _, rfl⟩
  | token :: rest, pairs => by
      intro hPairs
      obtain ⟨name, spec, value, others, rfl, hValue, hOthers, rfl⟩ :=
        compilePairs_cons_eq_ok_iff.1 hPairs
      obtain ⟨hLaidOut, hTextual⟩ := of_compile spec value hValue
      obtain ⟨named, rfl, hNamed, hRest⟩ := of_compilePairs tag rest others hOthers
      refine ⟨(name, spec) :: named, rfl, List.forall_mem_cons.2 ⟨hLaidOut, hNamed⟩, ?_⟩
      rw [tokensOfPairs, textualTokens, textualToken, hTextual, hRest]

theorem of_compileItems (tag : Char) : (tokens : List SpecToken) →
    (items : List ExpectedElement) → compileItems tag tokens = .ok items →
    ∃ specs : List Spec, tokens = specs.map .nested ∧ (∀ spec ∈ specs, spec.IsLaidOut) ∧
      tokensOfItems items = textualTokens tokens
  | [], pairs => by
      intro hItems
      cases hItems
      exact ⟨[], rfl, List.forall_mem_nil _, rfl⟩
  | token :: rest, items => by
      intro hItems
      obtain ⟨spec, value, others, rfl, hValue, hOthers, rfl⟩ :=
        compileItems_cons_eq_ok_iff.1 hItems
      obtain ⟨hLaidOut, hTextual⟩ := of_compile spec value hValue
      obtain ⟨specs, rfl, hSpecs, hRest⟩ := of_compileItems tag rest others hOthers
      refine ⟨spec :: specs, rfl, List.forall_mem_cons.2 ⟨hLaidOut, hSpecs⟩, ?_⟩
      rw [tokensOfItems, textualTokens, textualToken, hTextual, hRest]

end

/-! ### What is laid out compiles -/

theorem exists_compilePairs (tag : Char) {named : List (String × Spec)}
    (hNamed : ∀ pair ∈ named, ∃ value, pair.2.compile = .ok value) :
    ∃ pairs, compilePairs tag (named.map fun pair => .pair pair.1 pair.2) = .ok pairs := by
  induction named with
  | nil => exact ⟨[], rfl⟩
  | cons pair rest ih =>
      rw [List.forall_mem_cons] at hNamed
      obtain ⟨value, hValue⟩ := hNamed.1
      obtain ⟨others, hOthers⟩ := ih hNamed.2
      exact ⟨_, compilePairs_cons_eq_ok_iff.2 ⟨_, _, value, others, rfl, hValue, hOthers, rfl⟩⟩

theorem exists_compileItems (tag : Char) {specs : List Spec}
    (hSpecs : ∀ spec ∈ specs, ∃ value, spec.compile = .ok value) :
    ∃ items, compileItems tag (specs.map .nested) = .ok items := by
  induction specs with
  | nil => exact ⟨[], rfl⟩
  | cons spec rest ih =>
      rw [List.forall_mem_cons] at hSpecs
      obtain ⟨value, hValue⟩ := hSpecs.1
      obtain ⟨others, hOthers⟩ := ih hSpecs.2
      exact ⟨_, compileItems_cons_eq_ok_iff.2 ⟨_, value, others, rfl, hValue, hOthers, rfl⟩⟩

theorem exists_single {token : SpecToken} (hToken : token.IsScalar) :
    ∃ content, SpecToken.single [token] = .ok content := by
  obtain ⟨content, hText⟩ := exists_scalarText?_iff.2 hToken
  exact ⟨content, single_eq_ok_iff.2 ⟨token, rfl, hText⟩⟩

theorem IsLaidOut.exists_compile {spec : Spec} (hLaidOut : spec.IsLaidOut) :
    ∃ value, spec.compile = .ok value := by
  induction hLaidOut with
  | literal kind hToken =>
      obtain ⟨content, hSingle⟩ := exists_single hToken
      exact ⟨_, compile_literal_eq_ok_iff.2 ⟨content, hSingle, rfl⟩⟩
  | classLiteral hToken =>
      obtain ⟨content, hSingle⟩ := exists_single hToken
      exact ⟨_, compile_classLiteral_eq_ok_iff.2 ⟨content, hSingle, rfl⟩⟩
  | enumConstant typeName constantName =>
      exact ⟨_, compile_enumConstant_eq_ok_iff.2 ⟨typeName, constantName, rfl, rfl⟩⟩
  | annotationValue typeName hPairs ih =>
      obtain ⟨pairs, hCompiled⟩ := exists_compilePairs Tag.annotationValue.symbol ih
      exact ⟨_, compile_annotationValue_eq_ok_iff.2
        ⟨typeName, _, pairs, rfl, hCompiled, rfl⟩⟩
  | array hItems ih =>
      obtain ⟨items, hCompiled⟩ := exists_compileItems Tag.array.symbol ih
      exact ⟨_, compile_array_eq_ok_iff.2 ⟨items, hCompiled, rfl⟩⟩

/-- Exactly the specifications that are laid out compile. The specification of an expected
value compiles to that value, and a specification that compiles is, up to text in the place of
numbers and truth values, the specification of its value. -/
theorem compile_exactly_laidOut :
    (∀ spec : Spec, (∃ value, spec.compile = .ok value) ↔ spec.IsLaidOut) ∧
    (∀ value : ExpectedElement, (ofElement value).compile = .ok value) ∧
    ∀ (spec : Spec) (value : ExpectedElement), spec.compile = .ok value →
      ofElement value = spec.textual := by
  refine ⟨fun spec => ⟨?_, IsLaidOut.exists_compile⟩, compile_ofElement, ?_⟩
  · intro hGiven
    obtain ⟨value, hValue⟩ := hGiven
    exact (of_compile spec value hValue).1
  · intro spec value hValue
    exact (of_compile spec value hValue).2

/-- An annotation with a truth value and an array of a number. -/
def mixedSpec : Spec :=
  .mk '@' [.text "LMarker;", .pair "a" (.mk 'Z' [.bool true]),
    .pair "b" (.mk '[' [.nested (.mk 'F' [.number (.integer 5)])])]

theorem mixedSpec_textual :
    ∃ value, mixedSpec.compile = .ok value ∧ mixedSpec.IsLaidOut ∧
      ofElement value = .mk '@' [.text "LMarker;", .pair "a" (.mk 'Z' [.text "true"]),
        .pair "b" (.mk '[' [.nested (.mk 'F' [.text "5"])])] := by
  obtain ⟨value, hValue⟩ : ∃ value, mixedSpec.compile = .ok value := ⟨_, rfl⟩
  have hTextual := compile_exactly_laidOut.2.2 mixedSpec value hValue
  exact ⟨value, hValue, (compile_exactly_laidOut.1 mixedSpec).1 ⟨value, hValue⟩, hTextual⟩

end Spec

end AnnotationDefaults
