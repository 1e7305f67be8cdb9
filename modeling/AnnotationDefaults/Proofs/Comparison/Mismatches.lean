import AnnotationDefaults.Proofs.Comparison.Reach
import AnnotationDefaults.Proofs.Scalar.Tokens

set_option autoImplicit false

/-!
What a mismatch of values shows. Its two texts come from different sides: the token as it was
given, and a text made for the stored value, which is the value's token or, where the kind
refuses the value, its display. The two are never the same: a token is read as its value
again, and no display of a refused value is a token of the kind.
-/

namespace AnnotationDefaults

/-! ### Displays of refused integers -/

namespace Scalar

variable {kind : LiteralTag} {value : Int32} {wanted : Scalar} {cause : RenderFault}

private theorem read_render_int32 (value : Int32) :
    Integer.read 32 (Integer.render value.toInt) = .ok value.toInt :=
  Integer.read_render ⟨value.le_toInt, value.toInt_lt⟩

private theorem render_ne {token : String} {fault : Integer.Fault}
    (hFault : Integer.read 32 token = .error fault) : Integer.render value.toInt ≠ token := by
  intro hSame
  have hRead := read_render_int32 value
  rw [hSame, hFault] at hRead
  cases hRead

private theorem fits_of_ofIntegerToken {width : Nat} {found : Int}
    (hFound : ofIntegerToken width (Integer.render value.toInt) = .ok found) :
    Integer.Fits width value.toInt := by
  have hRead := mapError_eq_ok_iff.1 hFound
  have hFits : Integer.Fits 32 value.toInt := ⟨value.le_toInt, value.toInt_lt⟩
  have hSame := Integer.read_render_unique hFits hRead
  exact hSame ▸ Integer.read_fits hRead

/-- A numeral that is a unit of text is one digit: no escape is a numeral. -/
private theorem lt_of_charUnit?_render {unit : Nat}
    (hUnit : charUnit? (Integer.render value.toInt).toList = some unit) :
    0 ≤ value.toInt ∧ value.toInt < 0x10000 := by
  unfold charUnit? at hUnit
  split at hUnit
  · rename_i hSingle
    have hBounds := Integer.lt_of_render_eq_singleton hSingle
    omega
  · rename_i hSymbols
    split at hUnit
    · rename_i hEscape
      have hMem : '\\' ∈ (Integer.render value.toInt).toList := by
        rw [hSymbols, hEscape.1]
        exact List.mem_cons_self
      rcases Integer.mem_render hMem with hDigit | hSign
      · cases hDigit
      · cases hSign
    · cases hUnit
  · cases hUnit

theorem readToken_display_of_refused
    (hRefused : integerToken kind value.toInt = .error cause) :
    readToken kind (Integer.render value.toInt) ≠ .ok wanted := by
  intro hRead
  cases kind with
  | byte =>
      obtain ⟨found, hFound, -⟩ := map_eq_ok_iff.1 hRead
      rw [integerToken, if_pos (fits_of_ofIntegerToken hFound)] at hRefused
      cases hRefused
  | short =>
      obtain ⟨found, hFound, -⟩ := map_eq_ok_iff.1 hRead
      rw [integerToken, if_pos (fits_of_ofIntegerToken hFound)] at hRefused
      cases hRefused
  | boolean =>
      have hTrue : Integer.render value.toInt ≠ "true" := render_ne rfl
      have hFalse : Integer.render value.toInt ≠ "false" := render_ne rfl
      rw [readToken, if_neg hTrue, if_neg hFalse] at hRead
      cases hRead
  | char =>
      simp only [readToken] at hRead
      split at hRead
      · rename_i unit hUnit
        rw [integerToken, if_pos (lt_of_charUnit?_render hUnit)] at hRefused
        cases hRefused
      · cases hRead
  | _ => cases hRefused

end Scalar

namespace Comparison

variable {pool : ConstantPool} {path : String} {node : DecodedElement}
  {expected : ExpectedElement} {outcome : Outcome} {wanted found : String}

/-! ### Single comparisons -/

/-- What is shown of a stored value is not a token that stands for another value. -/
theorem foundText_ne {kind : LiteralTag} {index : UInt16} {value other : Scalar} {token : String}
    (hValue : Scalar.resolve pool kind index = .ok value)
    (hToken : Scalar.ofToken kind token = .ok other) (hDiffers : ¬ value.agrees other = true) :
    token ≠ foundText kind value := by
  intro hSame
  cases hWritten : value.toToken kind with
  | ok written =>
      have hShown : foundText kind value = written := by rw [foundText, hWritten]
      obtain ⟨read, hRead, hAgree⟩ :=
        Scalar.exists_ofToken (Scalar.resolve_hasKind hValue) hWritten
      rw [hSame, hShown, hRead] at hToken
      cases hToken
      exact hDiffers hAgree
  | error cause =>
      have hShown : foundText kind value = value.display := by rw [foundText, hWritten]
      rw [hSame, hShown] at hToken
      cases value with
      | int value =>
          exact Scalar.readToken_display_of_refused hWritten (mapError_eq_ok_iff.1 hToken)
      | _ => cases hWritten

theorem literalCheck_texts_ne {kind : LiteralTag} {index : UInt16} {token : String}
    (hCheck : literalCheck pool kind index token = .valueMismatch wanted found) :
    wanted ≠ found := by
  unfold literalCheck at hCheck
  split at hCheck
  · cases hCheck
  · rename_i value hValue
    split at hCheck
    · cases hCheck
    · rename_i other hToken
      split_ifs at hCheck with hAgree
      cases hCheck
      exact foundText_ne hValue hToken hAgree

theorem textCheck_texts_ne {index : UInt16} {token : String}
    (hCheck : textCheck pool index token = .valueMismatch wanted found) : wanted ≠ found := by
  unfold textCheck at hCheck
  split at hCheck
  · cases hCheck
  · split_ifs at hCheck with hSame
    cases hCheck
    exact Ne.symm hSame

/-- The outcome of one comparison, of whichever kind. -/
inductive IsSingle (pool : ConstantPool) : Outcome → Prop
  | tag (path : String) (expected found : Tag) : IsSingle pool (tagOutcome path expected found)
  | literal (path : String) (kind : LiteralTag) (index : UInt16) (token : String) :
      IsSingle pool (literalOutcome pool path kind index token)
  | text (path what : String) (index : UInt16) (token : String) :
      IsSingle pool (textOutcome pool path what index token)
  | unresolved (path : String) (cause : Fault) :
      IsSingle pool ⟨path, "resolve element name", .malformed (.fault cause)⟩
  | missing (path name : String) (side : Side) : IsSingle pool (missingOutcome path name side)
  | members (path : String) (expected found : Nat) :
      IsSingle pool ⟨path, "check element count", .arityMismatch expected found⟩
  | sameLength (path : String) : IsSingle pool ⟨path, "check array length", .agreed⟩
  | otherLength (path : String) (expected found : Nat) :
      IsSingle pool ⟨path, "check array length", .arityMismatch expected found⟩

theorem IsSingle.texts_ne (hSingle : IsSingle pool outcome)
    (hCheck : outcome.check = .valueMismatch wanted found) : wanted ≠ found := by
  cases hSingle with
  | tag path expected found =>
      rw [tagOutcome] at hCheck
      split_ifs at hCheck
  | literal path kind index token => exact literalCheck_texts_ne hCheck
  | text path what index token => exact textCheck_texts_ne hCheck
  | _ => cases hCheck

/-! ### Whole comparisons -/

private theorem isSingle_itemOutcomes {start : Nat} {items : List DecodedElement}
    {others : List ExpectedElement}
    (hItems : ∀ inner ∈ others, ∀ path value, ∀ outcome ∈ outcomesAt pool path value inner,
      IsSingle pool outcome) (hMem : outcome ∈ itemOutcomes pool path start items others) :
    IsSingle pool outcome := by
  induction others generalizing start items with
  | nil =>
      cases items with
      | _ => cases hMem
  | cons inner others ih =>
      cases items with
      | nil => cases hMem
      | cons item items =>
          rw [List.forall_mem_cons] at hItems
          rw [itemOutcomes, List.mem_append] at hMem
          rcases hMem with hItem | hRest
          · exact hItems.1 _ _ _ hItem
          · exact ih hItems.2 hRest

private theorem isSingle_countOutcomes {named : List (String × DecodedElement)}
    {names : List String} (hMem : outcome ∈ countOutcomes path named names) :
    IsSingle pool outcome := by
  unfold countOutcomes at hMem
  split_ifs at hMem
  · rw [List.mem_singleton.1 hMem]
    exact .members _ _ _
  · cases hMem

private theorem isSingle_of_tag_ne (hTag : expected.tag ≠ node.tag)
    (hMem : outcome ∈ outcomesAt pool path node expected) : IsSingle pool outcome := by
  rw [outcomesAt_of_tag_ne hTag, List.mem_singleton] at hMem
  rw [hMem]
  exact .tag _ _ _

private theorem isSingle_annotationValue {typeIndex : UInt16} {typeName : String}
    {pairs : List (UInt16 × DecodedElement)} {members : List (String × ExpectedElement)}
    (hValues : ∀ pair ∈ members, ∀ path value, ∀ outcome ∈ outcomesAt pool path value pair.2,
      IsSingle pool outcome)
    (hMem : outcome ∈ outcomesAt pool path (.annotationValue typeIndex pairs)
      (.annotationValue typeName members)) : IsSingle pool outcome := by
  cases hNamed : resolveNames pool pairs with
  | error cause =>
      rw [outcomesAt_annotationValue_of_error hNamed] at hMem
      simp only [List.mem_cons, List.not_mem_nil, or_false] at hMem
      rcases hMem with rfl | rfl | rfl
      · exact .tag _ _ _
      · exact .text _ _ _ _
      · exact .unresolved _ _
  | ok named =>
      simp only [outcomesAt_annotationValue hNamed, List.mem_cons, List.mem_append,
        List.mem_flatMap, unexpectedOutcomes, List.mem_map] at hMem
      rcases hMem with rfl | rfl | (⟨pair, hPair, hInside⟩ | ⟨entry, -, rfl⟩) | hCount
      · exact .tag _ _ _
      · exact .text _ _ _ _
      · unfold memberOutcomes at hInside
        split at hInside
        · exact hValues pair hPair _ _ _ hInside
        · rw [List.mem_singleton.1 hInside]
          exact .missing _ _ _
      · exact .missing _ _ _
      · exact isSingle_countOutcomes hCount

theorem isSingle_of_mem (hMem : outcome ∈ outcomesAt pool path node expected) :
    IsSingle pool outcome := by
  induction expected using Element.inductionOn generalizing outcome node path with
  | literal kind token =>
      by_cases hTag : (Element.literal kind token).tag = node.tag
      · cases node with
        | literal kind' index =>
            cases hTag
            rw [outcomesAt_literal, List.mem_cons, List.mem_singleton] at hMem
            rcases hMem with rfl | rfl
            · exact .tag _ _ _
            · exact .literal _ _ _ _
        | _ => cases hTag
      · exact isSingle_of_tag_ne hTag hMem
  | enumConstant typeName constantName =>
      cases node with
      | enumConstant typeIndex constantIndex =>
          simp only [outcomesAt, List.mem_cons, List.not_mem_nil, or_false] at hMem
          rcases hMem with rfl | rfl | rfl
          · exact .tag _ _ _
          · exact .text _ _ _ _
          · exact .text _ _ _ _
      | _ =>
          refine isSingle_of_tag_ne ?_ hMem
          intro hTag
          cases hTag
  | classLiteral descriptor =>
      cases node with
      | classLiteral index =>
          simp only [outcomesAt, List.mem_cons, List.not_mem_nil, or_false] at hMem
          rcases hMem with rfl | rfl
          · exact .tag _ _ _
          · exact .text _ _ _ _
      | _ =>
          refine isSingle_of_tag_ne ?_ hMem
          intro hTag
          cases hTag
  | annotationValue typeName members ih =>
      cases node with
      | annotationValue typeIndex pairs =>
          exact isSingle_annotationValue
            (fun pair hPair path value outcome hInside => ih pair hPair hInside) hMem
      | _ =>
          refine isSingle_of_tag_ne ?_ hMem
          intro hTag
          cases hTag
  | array others ih =>
      cases node with
      | array items =>
          by_cases hLength : items.length = others.length
          · rw [outcomesAt_array hLength, List.mem_cons, List.mem_cons] at hMem
            rcases hMem with rfl | rfl | hItems
            · exact .tag _ _ _
            · exact .sameLength _
            · exact isSingle_itemOutcomes
                (fun inner hInner path value outcome hInside => ih inner hInner hInside) hItems
          · rw [outcomesAt_array_of_length_ne hLength, List.mem_cons, List.mem_singleton] at hMem
            rcases hMem with rfl | rfl
            · exact .tag _ _ _
            · exact .otherLength _ _ _
      | _ =>
          refine isSingle_of_tag_ne ?_ hMem
          intro hTag
          cases hTag

/-- A mismatch of values that a comparison records shows two different texts: what the
expectation asks for and what is shown of the stored content. -/
theorem valueMismatch_texts_ne (hMem : outcome ∈ outcomes pool node expected)
    (hCheck : outcome.check = .valueMismatch wanted found) : wanted ≠ found :=
  (isSingle_of_mem hMem).texts_ne hCheck

/-- A stored integer beyond the kind's range: its numeral is shown, which is no token. -/
theorem valueMismatch_texts_ne_char :
    let pool : ConstantPool := .ofSlots [some (.integer 65601)]
    let outcome : Outcome := ⟨"default[0]", "check char value", .valueMismatch "A" "65601"⟩
    outcome ∈ outcomes pool (.array [.literal .char 1]) (.array [.literal .char "A"]) ∧
      outcome.check = .valueMismatch "A" "65601" ∧ "A" ≠ "65601" := by
  intro pool outcome
  have hMem : outcome ∈ outcomes pool (.array [.literal .char 1])
      (.array [.literal .char "A"]) := by
    decide
  exact ⟨hMem, rfl, valueMismatch_texts_ne hMem rfl⟩

end Comparison

end AnnotationDefaults
